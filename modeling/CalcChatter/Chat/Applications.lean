import CalcChatter.Chat.Lifecycle
import CalcChatter.Chat.Lossy

/-!
# Two applications on a network (wxChatterApp.cpp:115-151)

A `Session` starts with both workers at work, and never ends. Here both parties are whole
applications: each goes through `OnInit`, handles its events, is closed and destroyed, at its own pace,
and a datagram reaches only an application whose receiving socket is bound to its destination.

| here | there |
| --- | --- |
| `World`    | two `App`s and the datagrams in flight |
| `app b a`  | a step of one application: its main thread, its user, its worker |
| `endSend`  | `SendMessage` in `OnSendCommand` (Chatter.h:207), with the datagram that leaves |
| `deliver`  | the worker of `b` receives the datagram at `i` |
| `Ready`    | the channel `OnInit` ends with, if it gets past `Bind` |

`Mirrors` relates an application to a side of a session, and `step_refined` is the step: a session has
nothing to do while an application starts up or goes down. `applications_refine_session` is the law over
all runs, and `applications_chat` what it means for two users who were given each other's endpoints.
-/

namespace CalcChatter.Chat

open Cxx Lts UdpChatChannel Merging Fuel.Comp

structure World where
  app : Bool → App
  flight : List Datagram

inductive WorldAct where
  | app (b : Bool) (a : AppAct)
  | endSend (b : Bool) (r : Sent)
  | deliver (b : Bool) (i : Nat)
  | lose (i : Nat)
  | duplicate (i : Nat)

namespace World

/-- No application has started. -/
def start : World := ⟨fun _ => .start, []⟩

/-- The steps of an application that the network has no part in; `recvfrom` times out. -/
def onItsOwn : AppAct → Bool
  | .endSend _ => false
  | .worker a => Session.onItsOwn a
  | _ => true

def set (w : World) (b : Bool) (s : App) : World := { w with app := fun c => if c = b then s else w.app c }

/-- Where the receiving socket of an application is bound. -/
def boundTo (w : World) (b : Bool) : Option SockAddr :=
  (w.app b).loop.bind fun l => l.channel.recvSocket.map (·.endpoint)

/-- The strings a step appends to the view of `b`; a call that finds the view destroyed shows what it was
given all the same. -/
def appended (b : Bool) (s : App) (uses : List Use) : AppAct → List Line
  | .beginSend => [⟨b, true, (Chat.beginSend s.window).1⟩]
  | _ => uses.map fun u => ⟨b, false, u.message ++ [ch '\n']⟩

def appStep (host : Bool → Host) (w : World) (b : Bool) (a : AppAct) : Option (World × List Line) :=
  ((w.app b).step (host b) a).map fun (s, uses) => (w.set b s, appended b (w.app b) uses a)

def step (host : Bool → Host) (w : World) : WorldAct → Option (World × List Line)
  | .app b a => if onItsOwn a then w.appStep host b a else none
  | .endSend b r => do
    let msg ← (w.app b).sending
    let l ← (w.app b).loop
    let sent ← l.channel.sendMessage (host b).inetAddr msg r
    let (w', lines) ← w.appStep host b (.endSend r)
    return ({ w' with flight := w.flight ++ sent.toList }, lines)
  | .deliver b i =>
    match w.flight[i]? with
    | none => none
    | some d =>
      if w.boundTo b = some d.dst then
        { w with flight := w.flight.eraseIdx i }.appStep host b (.worker (.recv (.datagram d)))
      else none
  | .lose i => if i < w.flight.length then some ({ w with flight := w.flight.eraseIdx i }, []) else none
  | .duplicate i => w.flight[i]?.map fun d => ({ w with flight := w.flight ++ [d] }, [])

/-- Nothing is copied, and the datagram delivered is the first one in flight to its application. -/
def inOrder (w : World) : WorldAct → Bool
  | .duplicate _ => false
  | .deliver b i => (w.flight.take i).all fun d => w.boundTo b ≠ some d.dst
  | _ => true

end World

def world (host : Bool → Host) : Machine World WorldAct Line := ⟨World.step host⟩

/-! ## An application as a side of a session -/

/-- `Initialise` leaves the channel of the application as `ready`, if it returns. -/
def Ready (host : Host) (ready : UdpChatChannel Unit) : Prop :=
  ∀ c b c', IsNew host c → Halts ((c.setCallbackHandler (some ())).initialise host.inetAddr host.env) (.ok (b, c')) →
    c' = ready

/-- The same worker in a session, where nobody stops it: it is about to test the flag. -/
def calm (l : Loop Unit) : Loop Unit :=
  { l with channel.stopWorker := false, pc := if l.pc = .exited then .head else l.pc }

/-- The loop of the application's channel, and the one in the session. -/
def LoopMirrors (host : Host) (ready : UdpChatChannel Unit) (loop : Option (Loop Unit)) (x : Loop Unit) : Stage → Prop
  | .makeChannel => loop = none ∧ x = .start ready
  | .makePresenter => (∃ c, IsNew host c ∧ loop = some (.start c)) ∧ x = .start ready
  | .makeView | .initialise =>
    (∃ c, IsNew host c ∧ loop = some (.start (c.setCallbackHandler (some ())))) ∧ x = .start ready
  | .finished | .refused => loop = none
  | _ => ∃ l, loop = some l ∧ x = calm l

structure Mirrors (host : Host) (ready : UdpChatChannel Unit) (s : App) (x : Side) : Prop where
  view : x.view = s.window
  sending : x.sending = s.sending
  loop : LoopMirrors host ready s.loop x.loop s.stage

section Mirrors

variable {host : Host} {ready : UdpChatChannel Unit} {s s' : App} {x : Side}

theorem mirrors_start (host : Host) (ready : UdpChatChannel Unit) :
    Mirrors host ready .start ⟨⟨[], []⟩, none, .start ready⟩ := ⟨rfl, rfl, rfl, rfl⟩

/-- A channel that has a worker or a sending socket has been initialised. -/
theorem Mirrors.initialised {l : Loop Unit} (h : Mirrors host ready s x) (hl : s.loop = some l)
    (hi : l.channel.worker.isSome = true ∨ l.channel.sendSocket.isSome = true) :
    x.loop = calm l ∧ ∀ l', LoopMirrors host ready (some l') (calm l') s.stage := by
  have hnew : ∀ c : UdpChatChannel Unit, IsNew host c → c.worker = none ∧ c.sendSocket = none := by
    rintro c ⟨-, my, peer, -, -, hc⟩
    obtain ⟨-, -, hs, -, hw, -⟩ := new_spec hc
    exact ⟨hw, hs⟩
  have hloop := h.loop
  cases hst : s.stage <;> simp only [hst, LoopMirrors] at hloop
  case makeChannel => simp [hl] at hloop
  case makePresenter =>
    obtain ⟨⟨c, hc, hlc⟩, -⟩ := hloop
    obtain rfl := Option.some.inj (hl.symm.trans hlc)
    simp [Loop.start, hnew c hc] at hi
  case makeView | initialise =>
    obtain ⟨⟨c, hc, hlc⟩, -⟩ := hloop
    obtain rfl := Option.some.inj (hl.symm.trans hlc)
    simp [Loop.start, setCallbackHandler, hnew c hc] at hi
  case finished | refused => simp [hl] at hloop
  all_goals
    obtain ⟨l', hl', hx⟩ := hloop
    obtain rfl := Option.some.inj (hl.symm.trans hl')
    exact ⟨hx, fun l'' => ⟨l'', rfl, rfl⟩⟩

/-- A step of a worker is a step of the same worker in a session, or the one that ends its loop. -/
theorem calm_step {l l' : Loop Unit} {act : Act Unit} {calls : List (Unit × Bytes)} (ha : App.byWorker act = true)
    (h : l.step act = some (l', calls)) :
    (act = .test ∧ calls = [] ∧ calm l' = calm l) ∨ (calm l).step act = some (calm l', calls) := by
  cases act with
  | setCallbackHandler _ | stop => cases ha
  | recv a =>
    obtain ⟨hpc, h⟩ := Option.ite_none_right_eq_some.1 h
    obtain ⟨⟨got, buffer⟩, hr, he⟩ := Option.map_eq_some_iff.1 h
    cases he
    have hr' : (calm l).channel.receiveMessage (calm l).buffer a = some (got, buffer) := hr
    right
    cases got <;> simp [Loop.step, hr'] <;> simp [calm, hpc]
  | test =>
    cases Loop.step_cases h with
    | test hpc => cases hs : l.channel.stopWorker <;> simp [calm, Loop.step, hpc]
  | count =>
    cases Loop.step_cases h with
    | count hpc => exact .inr (by simp [calm, Loop.step, hpc])
  | call =>
    cases Loop.step_cases h with
    | call hpc => exact .inr (by simp [calm, Loop.step, hpc])
  | sleep =>
    cases Loop.step_cases h with
    | sleep hpc => exact .inr (by simp [calm, Loop.step, hpc])

/-- A worker that has just been started was not stopped. -/
theorem calm_start {c c' : UdpChatChannel Unit} {b : Bool} (hc : IsNew host c)
    (h : Halts ((c.setCallbackHandler (some ())).initialise host.inetAddr host.env) (.ok (b, c'))) :
    calm (.start c') = .start c' := by
  obtain ⟨-, my, peer, -, -, hnew⟩ := hc
  obtain ⟨-, -, hs, -, -, -, hstop⟩ := new_spec hnew
  have hopen : (c.setCallbackHandler (some ())).isOpen = false := by simp [isOpen, setCallbackHandler, hs]
  obtain ⟨_, _, -, -, rfl⟩ := initialise_named hopen h
  simp [calm, Loop.start, started, setCallbackHandler, hstop]

/-- The main thread leaves the session as it is. -/
theorem mirrors_main (hready : Ready host ready) (h : Mirrors host ready s x) (hs : s.mainStep host = some s') :
    Mirrors host ready s' x := by
  obtain ⟨hview, hsending, hloop⟩ := h
  unfold App.mainStep at hs
  split at hs
  · next hst =>
    rw [hst] at hloop
    split at hs
    · next prog my peer rest hargv =>
      split at hs
      · next c hc =>
        cases hs
        exact ⟨hview, hsending, ⟨c, ⟨prog, my, peer, rest, hargv, hc⟩, rfl⟩, hloop.2⟩
      · cases hs
    · cases hs
      exact ⟨hview, hsending, hloop.1⟩
  · next hst =>
    rw [hst] at hloop
    obtain ⟨⟨c, hc, hl⟩, hx⟩ := hloop
    rw [hl] at hs
    cases hs
    exact ⟨hview, hsending, ⟨c, hc, rfl⟩, hx⟩
  · next hst =>
    rw [hst] at hloop
    cases hs
    exact ⟨hview, hsending, hloop⟩
  · next hst =>
    rw [hst] at hloop
    obtain ⟨⟨c, hc, hl⟩, hx⟩ := hloop
    simp only [hl, Option.bind_eq_bind, Option.bind_some] at hs
    split at hs
    · next b c' hrun =>
      cases hs
      have hcalm := calm_start hc ⟨_, hrun⟩
      obtain rfl : c' = ready := hready c b c' hc ⟨_, hrun⟩
      exact ⟨hview, hsending, _, rfl, hx.trans hcalm.symm⟩
    · cases hs
  · next hst =>
    rw [hst] at hloop
    cases hs
    exact ⟨hview, hsending, hloop⟩
  · next hst =>
    rw [hst] at hloop
    obtain ⟨l, hl, rfl⟩ := Option.map_eq_some_iff.1 hs
    exact ⟨hview, hsending, hloop⟩
  · next hst =>
    rw [hst] at hloop
    cases hs
    exact ⟨hview, hsending, hloop⟩
  · next hst =>
    rw [hst] at hloop
    obtain ⟨l, hl, hx⟩ := hloop
    rw [hl] at hs
    cases hs
    exact ⟨hview, hsending, _, rfl, hx⟩
  · next hst =>
    obtain ⟨l, -, hs⟩ := Option.bind_eq_some_iff.1 hs
    split at hs <;> cases hs
    exact ⟨hview, hsending, rfl⟩
  · cases hs
  · cases hs
  · cases hs

end Mirrors

/-! ## The steps -/

section Steps

variable {inetAddr : Bytes → UInt32} {host : Bool → Host} {ready : Bool → UdpChatChannel Unit} {w w' : World}
  {t : Session} {a : WorldAct} {o : List Line} {b : Bool}

structure Refined (host : Bool → Host) (ready : Bool → UdpChatChannel Unit) (w : World) (t : Session) : Prop where
  flight : t.flight = w.flight
  side : ∀ b, Mirrors (host b) (ready b) (w.app b) (t.side b)

theorem refined_start (host : Bool → Host) (ready : Bool → UdpChatChannel Unit) :
    Refined host ready .start (.start ready) := ⟨rfl, fun b => mirrors_start (host b) (ready b)⟩

theorem Refined.set {s : App} {x : Side} (h : Refined host ready w t) (hx : Mirrors (host b) (ready b) s x) :
    Refined host ready (w.set b s) (t.set b x) := by
  refine ⟨h.flight, ?_⟩
  intro c
  by_cases hc : c = b
  · subst hc
    simpa [World.set] using hx
  · simpa [World.set, hc] using h.side c

/-- The application takes a step, and its side of the session none. -/
theorem Refined.set_left {s : App} (h : Refined host ready w t) (hx : Mirrors (host b) (ready b) s (t.side b)) :
    Refined host ready (w.set b s) t := by
  refine ⟨h.flight, ?_⟩
  intro c
  by_cases hc : c = b
  · subst hc
    simpa [World.set] using hx
  · simpa [World.set, hc] using h.side c

/-- What a step of a worker of an application is in the session. -/
theorem worker_refined {act : Act Unit} (h : Refined host ready w t)
    (hs : w.appStep host b (.worker act) = some (w', o)) :
    (act = .test ∧ o = [] ∧ Refined host ready w' t) ∨
      ∃ t', t.workerStep b act = some (t', o) ∧ Refined host ready w' t' := by
  obtain ⟨⟨s', uses⟩, hstep, he⟩ := Option.map_eq_some_iff.1 hs
  cases he
  have hm := h.side b
  cases App.step_cases hstep with
  | @worker _ l loop calls hl hw ha hl' =>
    obtain ⟨hx, hkeep⟩ := hm.initialised hl (.inl hw)
    rcases calm_step ha hl' with ⟨rfl, rfl, hcalm⟩ | hcalm
    · refine .inl ⟨rfl, rfl, h.set_left ⟨hm.view, hm.sending, ?_⟩⟩
      rw [hx, ← hcalm]
      exact hkeep loop
    · refine .inr ⟨t.set b { t.side b with loop := calm loop, view := handOver (t.side b).view calls }, ?_, ?_⟩
      · rw [← hx] at hcalm
        simp [Session.workerStep, hcalm, World.appended, App.use]
      · refine h.set ⟨?_, hm.sending, hkeep loop⟩
        rw [hm.view]

/-- An application whose worker takes a step is bound where its side of the session is. -/
theorem boundTo_refined {act : Act Unit} (h : Refined host ready w t)
    (hs : w.appStep host b (.worker act) = some (w', o)) : t.boundTo b = w.boundTo b := by
  obtain ⟨⟨s', uses⟩, hstep, -⟩ := Option.map_eq_some_iff.1 hs
  cases App.step_cases hstep with
  | worker hl hw ha hl' =>
    obtain ⟨hx, -⟩ := (h.side b).initialised hl (.inl hw)
    rw [Session.boundTo, World.boundTo, hx, hl]
    rfl

/-- A step that an application takes without the network is one of the session, or none. -/
theorem own_refined {act : AppAct} (hready : ∀ b, Ready (host b) (ready b)) (ha : World.onItsOwn act = true)
    (h : Refined host ready w t) (hs : w.appStep host b act = some (w', o)) :
    (o = [] ∧ Refined host ready w' t) ∨ ∃ c t', t.step inetAddr c = some (t', o) ∧ Refined host ready w' t' ∧
      t.inOrder c = true := by
  have hm := h.side b
  cases act with
  | main =>
    obtain ⟨⟨s', uses⟩, hstep, he⟩ := Option.map_eq_some_iff.1 hs
    cases he
    obtain ⟨s', hmain, he⟩ := Option.map_eq_some_iff.1 hstep
    cases he
    exact .inl ⟨rfl, h.set_left (mirrors_main (hready b) hm hmain)⟩
  | type message =>
    obtain ⟨⟨s', uses⟩, hstep, he⟩ := Option.map_eq_some_iff.1 hs
    cases he
    obtain ⟨hguard, he⟩ := Option.ite_none_right_eq_some.1 hstep
    cases he
    refine .inr ⟨.type b message, t.set b { t.side b with view := (t.side b).view.setMessage message }, ?_, ?_, rfl⟩
    · simp [Session.step, hm.sending, hguard.2, World.appended]
    · exact h.set ⟨by rw [hm.view], hm.sending, hm.loop⟩
  | beginSend =>
    obtain ⟨⟨s', uses⟩, hstep, he⟩ := Option.map_eq_some_iff.1 hs
    cases he
    obtain ⟨hguard, he⟩ := Option.ite_none_right_eq_some.1 hstep
    cases he
    refine .inr ⟨.beginSend b, _, ?_, h.set (x := { t.side b with
      view := (Chat.beginSend (t.side b).view).2, sending := some (Chat.beginSend (t.side b).view).1 }) ?_, rfl⟩
    · simp [Session.step, hm.sending, hm.view, hguard.2, World.appended]
    · exact ⟨by rw [hm.view]; rfl, by rw [hm.view]; rfl, hm.loop⟩
  | endSend r => cases ha
  | close =>
    obtain ⟨⟨s', uses⟩, hstep, he⟩ := Option.map_eq_some_iff.1 hs
    cases he
    obtain ⟨hguard, he⟩ := Option.ite_none_right_eq_some.1 hstep
    cases he
    have hloop := hm.loop
    rw [hguard.1] at hloop
    exact .inl ⟨rfl, h.set_left ⟨hm.view, hm.sending, hloop⟩⟩
  | worker act =>
    rcases worker_refined h hs with ⟨-, hnone⟩ | ⟨t', ht', hr⟩
    · exact .inl hnone
    · refine .inr ⟨.worker b act, t', ?_, hr, rfl⟩
      have hact : Session.onItsOwn act = true := ha
      simp [Session.step, hact, ht']

theorem step_refined (hinet : ∀ b, (host b).inetAddr = inetAddr) (hready : ∀ b, Ready (host b) (ready b))
    (h : Refined host ready w t) (hs : w.step host a = some (w', o)) :
    (o = [] ∧ Refined host ready w' t) ∨ ∃ c t', t.step inetAddr c = some (t', o) ∧ Refined host ready w' t' ∧
      (w.inOrder a = true → t.inOrder c = true) := by
  cases a with
  | app b act =>
    obtain ⟨hown, hs⟩ := Option.ite_none_right_eq_some.1 hs
    exact (own_refined hready hown h hs).imp_right fun ⟨c, t', ht', hr, hord⟩ => ⟨c, t', ht', hr, fun _ => hord⟩
  | endSend b r =>
    obtain ⟨msg, hmsg, hs⟩ := Option.bind_eq_some_iff.1 hs
    obtain ⟨l, hl, hs⟩ := Option.bind_eq_some_iff.1 hs
    obtain ⟨sent, hsent, hs⟩ := Option.bind_eq_some_iff.1 hs
    obtain ⟨⟨w₁, lines⟩, happ, he⟩ := Option.bind_eq_some_iff.1 hs
    cases he
    obtain ⟨⟨s', uses⟩, hstep, he⟩ := Option.map_eq_some_iff.1 happ
    cases he
    obtain ⟨msg', hmsg', hstep⟩ := Option.bind_eq_some_iff.1 hstep
    obtain ⟨l', hl', hstep⟩ := Option.bind_eq_some_iff.1 hstep
    obtain ⟨⟨view, sent'⟩, hend, he⟩ := Option.bind_eq_some_iff.1 hstep
    cases he
    obtain ⟨sent'', -, hview⟩ := Option.bind_eq_some_iff.1 hend
    cases hview
    have hm := h.side b
    obtain ⟨socket, hsock, -⟩ := Option.bind_eq_some_iff.1 hsent
    obtain ⟨hx, hkeep⟩ := hm.initialised hl (.inr (by simp [hsock]))
    -- the channel in the session differs only in the stop flag
    have hsent' : (t.side b).loop.channel.sendMessage inetAddr msg r = some sent := by
      rw [hx, ← hinet b]
      exact hsent
    refine .inr ⟨.endSend b r, { t.set b { t.side b with view := (t.side b).view.setMessage [], sending := none } with
      flight := t.flight ++ sent.toList }, ?_, ?_, fun _ => rfl⟩
    · simp [Session.step, hm.sending, hmsg, endSend, hsent', World.appended]
    · have hset := h.set (b := b) (s := { w.app b with window := (w.app b).window.setMessage [], sending := none })
        (x := { t.side b with view := (t.side b).view.setMessage [], sending := none }) ⟨by rw [hm.view], rfl, hm.loop⟩
      exact ⟨by rw [h.flight], hset.side⟩
  | deliver b i =>
    simp only [World.step] at hs
    split at hs
    · cases hs
    · next d hi =>
      obtain ⟨hb, hs⟩ := Option.ite_none_right_eq_some.1 hs
      have herase : Refined host ready { w with flight := w.flight.eraseIdx i } { t with flight := t.flight.eraseIdx i } :=
        ⟨by rw [h.flight], h.side⟩
      have hbound := boundTo_refined herase hs
      change t.boundTo b = w.boundTo b at hbound
      rcases worker_refined herase hs with ⟨htest, -⟩ | ⟨t', ht', hr⟩
      · cases htest
      · refine .inr ⟨.deliver b i, t', ?_, hr, ?_⟩
        · have hi' : t.flight[i]? = some d := by rw [h.flight]; exact hi
          simp [Session.step, hi', hbound, hb, ht']
        · simp [World.inOrder, Session.inOrder, h.flight, hbound]
  | lose i =>
    obtain ⟨hi, he⟩ := Option.ite_none_right_eq_some.1 hs
    cases he
    exact .inr ⟨.lose i, { t with flight := t.flight.eraseIdx i }, by simp [Session.step, h.flight, hi],
      ⟨by rw [h.flight], h.side⟩, fun _ => rfl⟩
  | duplicate i =>
    obtain ⟨d, hi, he⟩ := Option.map_eq_some_iff.1 hs
    cases he
    exact .inr ⟨.duplicate i, { t with flight := t.flight ++ [d] }, by simp [Session.step, h.flight, hi],
      ⟨by rw [h.flight], h.side⟩, by simp [World.inOrder]⟩

end Steps

/-! ## Whole runs -/

section Runs

variable {inetAddr : Bytes → UInt32} {host : Bool → Host} {ready : Bool → UdpChatChannel Unit} {acts : List WorldAct}
  {w : World} {out : List Line}

theorem run_refined (hinet : ∀ b, (host b).inetAddr = inetAddr) (hready : ∀ b, Ready (host b) (ready b))
    (h : run (world host) .start acts = some (w, out)) :
    ∃ acts' t, run (chat inetAddr) (.start ready) acts' = some (t, out) ∧ Refined host ready w t := by
  refine run_refines (Refined host ready) ?_ (refined_start host ready) h
  intro w t a w' o hr hs
  rcases step_refined hinet hready hr hs with ⟨rfl, hr'⟩ | ⟨c, t', hc, hr', -⟩
  · exact ⟨[], t, rfl, hr'⟩
  · exact ⟨[c], t', run_one_iff.2 hc, hr'⟩

theorem run_refined_inOrder (hinet : ∀ b, (host b).inetAddr = inetAddr) (hready : ∀ b, Ready (host b) (ready b))
    (h : run (guard (world host) World.inOrder) .start acts = some (w, out)) :
    ∃ acts' t, run (guard (chat inetAddr) Session.inOrder) (.start ready) acts' = some (t, out) ∧
      Refined host ready w t := by
  refine run_refines (Refined host ready) ?_ (refined_start host ready) h
  intro w t a w' o hr hs
  obtain ⟨hord, hs⟩ := guard_step.1 hs
  rcases step_refined hinet hready hr hs with ⟨rfl, hr'⟩ | ⟨c, t', hc, hr', hord'⟩
  · exact ⟨[], t, rfl, hr'⟩
  · exact ⟨[c], t', run_one_iff.2 (guard_step.2 ⟨hord' hord, hc⟩), hr'⟩

end Runs

/-! ## Two applications with endpoints -/

/-- Two applications, each with an endpoint of its own and one of a peer. `Bind` binds a socket where it was
asked to, and what is delivered there is what was sent there: so it is for endpoints with a port and without a
wildcard, and for no others (`bind` on port 0 chooses one, and a socket bound to `INADDR_ANY` receives at every
local address). -/
structure Given (inetAddr : Bytes → UInt32) (my peer : Bool → Bytes) (c₀ : Bool → UdpChatChannel Unit)
    (host : Bool → Host) : Prop where
  inetAddr_eq : ∀ b, (host b).inetAddr = inetAddr
  argv_eq : ∀ b, ∃ prog rest, (host b).argv = prog :: my b :: peer b :: rest
  new_eq : ∀ b, UdpChatChannel.new (my b) (peer b) = .ok (c₀ b)
  bound_eq : ∀ b k e, (host b).env.bound k = .named e → e = asked inetAddr (c₀ b)
  own_concrete : ∀ b, (asked inetAddr (c₀ b)).Concrete
  peer_concrete : ∀ b, (peerEndpoint inetAddr (c₀ b)).Concrete

/-- Two applications that were given each other's endpoints, and these are different. -/
structure Paired (inetAddr : Bytes → UInt32) (endpoint : Bool → Bytes) (c₀ : Bool → UdpChatChannel Unit)
    (host : Bool → Host) : Prop extends Given inetAddr endpoint (fun b => endpoint !b) c₀ host where
  distinct : asked inetAddr (c₀ true) ≠ asked inetAddr (c₀ false)

/-- The channel of `b` once its application has initialised it. -/
def readyChannel (inetAddr : Bytes → UInt32) (c₀ : Bool → UdpChatChannel Unit) (host : Bool → Host) (b : Bool) :
    UdpChatChannel Unit :=
  started inetAddr ((c₀ b).setCallbackHandler (some ())) (host b).env ⟨asked inetAddr (c₀ b), (host b).env.recvFd⟩

section Paired

variable {inetAddr : Bytes → UInt32} {my peer endpoint : Bool → Bytes} {c₀ : Bool → UdpChatChannel Unit}
  {host : Bool → Host}

theorem Given.ready (h : Given inetAddr my peer c₀ host) (b : Bool) :
    Ready (host b) (readyChannel inetAddr c₀ host b) := by
  rintro c r c' ⟨prog, my', peer', rest, hargv, hc⟩ hinit
  obtain ⟨prog', rest', hargv'⟩ := h.argv_eq b
  rw [hargv'] at hargv
  cases hargv
  obtain rfl : c = c₀ b := by simpa using hc.symm.trans (h.new_eq b)
  obtain ⟨-, -, hs, -⟩ := new_spec (h.new_eq b)
  have hopen : ((c₀ b).setCallbackHandler (some ())).isOpen = false := by simp [isOpen, setCallbackHandler, hs]
  obtain ⟨n, e, hn, -, rfl⟩ := initialise_named hopen hinit
  rw [h.bound_eq b n e hn, h.inetAddr_eq b, readyChannel]

theorem Paired.joined (h : Paired inetAddr endpoint c₀ host) : Joined inetAddr (readyChannel inetAddr c₀ host) :=
  joined_started h.new_eq (fun _ => rfl) h.distinct

end Paired

/-- The endpoints of two applications on one machine. -/
def endpoints (b : Bool) : Bytes := if b then lit "127.0.0.1:2000" else lit "127.0.0.1:2001"

def hosts (b : Bool) : Host where
  argv := [lit "chatter_app", endpoints b, endpoints !b]
  inetAddr := loopback
  env := ⟨3, 4, fun _ => .named ⟨0x0100007f, if b then 2000 else 2001⟩, 1⟩
  passes := 1

/-- The channels of `hosts` before `Initialise`. -/
def newChannels (b : Bool) : UdpChatChannel Unit where
  callbackHandler := none
  myIp := lit "127.0.0.1"
  myPort := if b then 2000 else 2001
  peerIp := lit "127.0.0.1"
  peerPort := if b then 2001 else 2000
  sendSocket := none
  recvSocket := none
  worker := none
  receivedMessageCount := 0
  stopWorker := false

theorem paired_hosts : Paired loopback endpoints newChannels hosts where
  inetAddr_eq _ := rfl
  argv_eq b := ⟨lit "chatter_app", [], rfl⟩
  new_eq b := by cases b <;> rfl
  bound_eq b k e h := by cases b <;> cases h <;> rfl
  own_concrete b := by cases b <;> exact ⟨by decide, by decide, by decide⟩
  peer_concrete b := by cases b <;> exact ⟨by decide, by decide, by decide⟩
  distinct := by decide

/-- One application starts and sends `hi` before the other one is there, and `yo` afterwards; then it is
closed. -/
def lateStart : List WorldAct :=
  List.replicate 6 (.app true .main) ++
  [.app true (.type (lit "hi")), .app true .beginSend, .endSend true (.success ⟨0x0100007f, 4000⟩), .lose 0] ++
  List.replicate 6 (.app false .main) ++
  [.app true (.type (lit "yo")), .app true .beginSend, .endSend true (.success ⟨0x0100007f, 4000⟩),
    .app true .close, .app true .main, .app false (.worker .test), .deliver false 0, .app false (.worker .count),
    .app false (.worker .call)]

/-! ## The laws -/

/-- **Two applications chat as a session does.** Whatever the two programs are started with, and however
their main threads, users and workers and the network take turns, from before `OnInit` to after the
last destructor: what is appended to the two views is what a session of the two channels appends, with
the same datagrams in flight and the same windows; over a network that neither copies nor reorders, a
session over such a network. -/
theorem applications_refine_session {inetAddr : Bytes → UInt32} {host : Bool → Host}
    {ready : Bool → UdpChatChannel Unit} (hinet : ∀ b, (host b).inetAddr = inetAddr)
    (hready : ∀ b, Ready (host b) (ready b)) :
    (∀ acts w out, run (world host) .start acts = some (w, out) →
      ∃ acts' t, run (chat inetAddr) (.start ready) acts' = some (t, out) ∧ t.flight = w.flight ∧
        ∀ b, (t.side b).view = (w.app b).window) ∧
    ∀ acts w out, run (guard (world host) World.inOrder) .start acts = some (w, out) →
      ∃ acts' t, run (guard (chat inetAddr) Session.inOrder) (.start ready) acts' = some (t, out) ∧
        t.flight = w.flight ∧ ∀ b, (t.side b).view = (w.app b).window := by
  constructor
  · intro acts w out hrun
    obtain ⟨acts', t, ht, hr⟩ := run_refined hinet hready hrun
    exact ⟨acts', t, ht, hr.flight, fun b => (hr.side b).view⟩
  · intro acts w out hrun
    obtain ⟨acts', t, ht, hr⟩ := run_refined_inOrder hinet hready hrun
    exact ⟨acts', t, ht, hr.flight, fun b => (hr.side b).view⟩

set_option maxRecDepth 8000 in
theorem applications_refine_session_late_start : ∃ w out acts' t,
    run (world hosts) .start lateStart = some (w, out) ∧ out.length = 3 ∧
    run (chat loopback) (.start (readyChannel loopback newChannels hosts)) acts' = some (t, out) ∧
    ∀ b, (t.side b).view = (w.app b).window := by
  obtain ⟨w, out, hrun, hlen⟩ : ∃ w out, run (world hosts) .start lateStart = some (w, out) ∧ out.length = 3 :=
    ⟨_, _, rfl, rfl⟩
  obtain ⟨hany, -⟩ := applications_refine_session paired_hosts.inetAddr_eq paired_hosts.ready
  obtain ⟨acts', t, ht, -, hview⟩ := hany _ _ _ hrun
  exact ⟨w, out, acts', t, hrun, hlen, ht, hview⟩

end CalcChatter.Chat

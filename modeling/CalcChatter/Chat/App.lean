import CalcChatter.Chat.Presenter

/-!
# The life of the application (wxChatterApp.cpp:115-151; Chatter.h:84-90, :187-232)

The main thread runs `OnInit`, handles events until the frame is closed, and destroys the members of
`MywxApp` in reverse order of declaration: the presenter, then the channel, whose destructor stops the
worker and joins it. The worker runs from `Initialise` to that join, and holds the presenter through
`callbackHandler_`; the presenter holds the view through `view_`. Nothing resets either pointer.

| here | there |
| --- | --- |
| `Stage`    | the statement the main thread executes next |
| `Life`     | whether an object on the heap exists |
| `viewSet`  | `view_` of the presenter is not null |
| `mainStep` | `OnInit` (:117), `ChatterPresenter::Initialise` (:216), `~MywxApp`, `~UdpChatChannel` (:84) |
| `close`    | the frame is closed, and with it the view destroyed |
| `Use`      | what a call of `OnMessageReceived` finds behind the two pointers |

`calls_find_view` is the law over runs in which nothing is handed over once the view is gone.
-/

namespace CalcChatter.Chat

open Cxx Lts UdpChatChannel

inductive Stage where
  | makeChannel | makePresenter | makeView | initialise | showView | setStatus
  | events
  | destroyPresenter | stopWorker | join | finished
  | refused   -- `OnInit` returned false
deriving DecidableEq

inductive Life where
  | unborn | alive | destroyed
deriving DecidableEq

/-- What the program is started with, and what the system calls of `Initialise` come back with;
`passes` bounds the attempts of `Bind`. -/
structure Host where
  argv : List Bytes
  inetAddr : Bytes → UInt32
  env : InitEnv
  passes : Nat

structure App where
  stage : Stage
  presenter : Life
  viewSet : Bool
  view : Life
  window : ChatterView
  status : Bytes
  sending : Option Bytes      -- what `OnSendCommand` has appended and not sent yet
  loop : Option (Loop Unit)   -- the channel and its worker

/-- The objects behind `callbackHandler_` and `view_` when `OnMessageReceived` is called. -/
structure Use where
  presenter : Life
  view : Option Life          -- `none` where `view_` is null
  message : Bytes
deriving DecidableEq

/-- The presenter and the view exist. -/
def Use.Valid (u : Use) : Prop := u.presenter = .alive ∧ u.view = some .alive

inductive AppAct where
  | main                        -- the next statement of the main thread, outside event handlers
  | type (message : Bytes)
  | beginSend
  | endSend (r : Sent)
  | close
  | worker (a : Act Unit)

namespace App

/-- `OnInit` has not started. -/
def start : App := ⟨.makeChannel, .unborn, false, .unborn, ⟨[], []⟩, [], none, none⟩

def mainStep (host : Host) (s : App) : Option App :=
  match s.stage with
  | .makeChannel =>
    match host.argv with
    | _ :: my :: peer :: _ =>
      match UdpChatChannel.new my peer with
      | .ok c => some { s with stage := .makePresenter, loop := some (.start c) }
      | .error _ => none
    | _ => some { s with stage := .refused }
  | .makePresenter => s.loop.map fun l =>
    { s with
      stage := .makeView, presenter := .alive
      loop := some { l with channel := l.channel.setCallbackHandler (some ()) } }
  | .makeView => some { s with stage := .initialise, view := .alive, viewSet := true }
  | .initialise => do
    let l ← s.loop
    match (l.channel.initialise host.inetAddr host.env).run host.passes with
    | some (.ok (_, c)) => some { s with stage := .showView, loop := some { l with channel := c } }
    | _ => none
  | .showView => some { s with stage := .setStatus }
  | .setStatus => s.loop.map fun l => { s with stage := .events, status := l.channel.toString }
  | .destroyPresenter => some { s with stage := .stopWorker, presenter := .destroyed }
  | .stopWorker => s.loop.map fun l => { s with stage := .join, loop := some { l with channel.stopWorker := true } }
  | .join => do
    let l ← s.loop
    if l.channel.worker = none ∨ l.pc = .exited then some { s with stage := .finished, loop := none } else none
  | .events | .finished | .refused => none

/-- What the worker does without the main thread. -/
def byWorker : Act Unit → Bool
  | .setCallbackHandler _ | .stop => false
  | _ => true

/-- What a call finds now. -/
def use (s : App) (call : Unit × Bytes) : Use := ⟨s.presenter, if s.viewSet then some s.view else none, call.2⟩

def workerStep (s : App) (a : Act Unit) : Option (App × List Use) := do
  let l ← s.loop
  if l.channel.worker.isSome && byWorker a then
    let (loop, calls) ← l.step a
    -- what the calls append behind a destroyed view means nothing; `Use` shows that they were made
    return ({ s with loop := some loop, window := handOver s.window calls }, calls.map s.use)
  else none

def step (host : Host) (s : App) : AppAct → Option (App × List Use)
  | .main => (s.mainStep host).map fun s' => (s', [])
  | .type message =>
    if s.stage = .events ∧ s.sending = none then some ({ s with window := s.window.setMessage message }, []) else none
  | .beginSend =>
    if s.stage = .events ∧ s.sending = none then
      let (msg, window) := Chat.beginSend s.window
      some ({ s with window, sending := some msg }, [])
    else none
  | .endSend r => do
    let msg ← s.sending
    let l ← s.loop
    let (window, _) ← Chat.endSend host.inetAddr l.channel msg s.window r
    return ({ s with window, sending := none }, [])
  | .close =>
    if s.stage = .events ∧ s.sending = none then
      some ({ s with stage := .destroyPresenter, view := .destroyed }, [])
    else none
  | .worker a => s.workerStep a

end App

def app (host : Host) : Machine App AppAct Use := ⟨App.step host⟩

/-! ## What a step can do -/

namespace App

variable {host : Host} {s s' : App} {a : AppAct} {o uses : List Use}

inductive MainStepped (host : Host) (s : App) : App → Prop where
  | makeChannel {c} (hs : s.stage = .makeChannel) (hw : c.worker = none) :
    MainStepped host s { s with stage := .makePresenter, loop := some (.start c) }
  | refuse (hs : s.stage = .makeChannel) : MainStepped host s { s with stage := .refused }
  | makePresenter {l} (hs : s.stage = .makePresenter) (hl : s.loop = some l) :
    MainStepped host s
      { s with
        stage := .makeView, presenter := .alive
        loop := some { l with channel := l.channel.setCallbackHandler (some ()) } }
  | makeView (hs : s.stage = .makeView) :
    MainStepped host s { s with stage := .initialise, view := .alive, viewSet := true }
  | initialise {l socket} (hs : s.stage = .initialise) (hl : s.loop = some l) :
    MainStepped host s
      { s with
        stage := .showView
        loop := some { l with channel := l.channel.started host.inetAddr host.env socket } }
  | initialiseAgain {l} (hs : s.stage = .initialise) (hl : s.loop = some l) (hopen : l.channel.isOpen = true) :
    MainStepped host s { s with stage := .showView, loop := some l }
  | showView (hs : s.stage = .showView) : MainStepped host s { s with stage := .setStatus }
  | setStatus {l} (hs : s.stage = .setStatus) (hl : s.loop = some l) :
    MainStepped host s { s with stage := .events, status := l.channel.toString }
  | destroyPresenter (hs : s.stage = .destroyPresenter) :
    MainStepped host s { s with stage := .stopWorker, presenter := .destroyed }
  | stopWorker {l} (hs : s.stage = .stopWorker) (hl : s.loop = some l) :
    MainStepped host s { s with stage := .join, loop := some { l with channel.stopWorker := true } }
  | join (hs : s.stage = .join) : MainStepped host s { s with stage := .finished, loop := none }

theorem mainStep_cases (h : s.mainStep host = some s') : MainStepped host s s' := by
  unfold mainStep at h
  split at h
  · next hs =>
    split at h
    · split at h
      · next c hnew =>
        cases h
        obtain ⟨-, -, -, -, hw, -⟩ := new_spec hnew
        exact .makeChannel hs hw
      · cases h
    · cases h
      exact .refuse hs
  · next hs =>
    obtain ⟨l, hl, rfl⟩ := Option.map_eq_some_iff.1 h
    exact .makePresenter hs hl
  · next hs =>
    cases h
    exact .makeView hs
  · next hs =>
    obtain ⟨l, hl, h⟩ := Option.bind_eq_some_iff.1 h
    split at h
    · next c hrun =>
      cases h
      rcases initialise_cases ⟨_, hrun⟩ with ⟨hopen, hr⟩ | ⟨-, -, hr⟩ | ⟨-, -, socket, -, hr⟩
      · cases hr
        exact .initialiseAgain hs hl hopen
      · cases hr
      · cases hr
        exact .initialise hs hl
    · cases h
  · next hs =>
    cases h
    exact .showView hs
  · next hs =>
    obtain ⟨l, hl, rfl⟩ := Option.map_eq_some_iff.1 h
    exact .setStatus hs hl
  · next hs =>
    cases h
    exact .destroyPresenter hs
  · next hs =>
    obtain ⟨l, hl, rfl⟩ := Option.map_eq_some_iff.1 h
    exact .stopWorker hs hl
  · next hs =>
    obtain ⟨l, -, h⟩ := Option.bind_eq_some_iff.1 h
    split at h <;> cases h
    exact .join hs
  · cases h
  · cases h
  · cases h

inductive Stepped (host : Host) (s : App) : AppAct → App → List Use → Prop where
  | main {t} (h : MainStepped host s t) : Stepped host s .main t []
  | type {message} : Stepped host s (.type message) { s with window := s.window.setMessage message } []
  | beginSend {window msg} : Stepped host s .beginSend { s with window, sending := some msg } []
  | endSend {r window} : Stepped host s (.endSend r) { s with window, sending := none } []
  | close (hs : s.stage = .events) : Stepped host s .close { s with stage := .destroyPresenter, view := .destroyed } []
  | worker {act l loop calls} (hl : s.loop = some l) (hw : l.channel.worker.isSome = true) (ha : byWorker act = true)
      (hs : l.step act = some (loop, calls)) :
    Stepped host s (.worker act) { s with loop := some loop, window := handOver s.window calls } (calls.map s.use)

theorem step_cases (h : s.step host a = some (s', o)) : Stepped host s a s' o := by
  cases a with
  | main =>
    obtain ⟨s', hm, he⟩ := Option.map_eq_some_iff.1 h
    cases he
    exact .main (mainStep_cases hm)
  | type message =>
    simp only [step] at h
    split at h <;> cases h
    exact .type
  | beginSend =>
    simp only [step] at h
    split at h <;> cases h
    exact .beginSend
  | endSend r =>
    obtain ⟨msg, -, h⟩ := Option.bind_eq_some_iff.1 h
    obtain ⟨l, -, h⟩ := Option.bind_eq_some_iff.1 h
    obtain ⟨⟨window, sent⟩, -, he⟩ := Option.bind_eq_some_iff.1 h
    cases he
    exact .endSend
  | close =>
    simp only [step] at h
    split at h
    · next hs =>
      cases h
      exact .close hs.1
    · cases h
  | worker act =>
    obtain ⟨l, hl, h⟩ := Option.bind_eq_some_iff.1 h
    split at h
    · next hw =>
      obtain ⟨hw, ha⟩ := Bool.and_eq_true_iff.1 hw
      obtain ⟨⟨loop, calls⟩, hs, he⟩ := Option.bind_eq_some_iff.1 h
      cases he
      exact .worker hl hw ha hs
    · cases h

/-! ## The lifetimes -/

/-- The presenter, whether `view_` is set, and the view, before each statement of the main thread. -/
def objectsAt : Stage → Life × Bool × Life
  | .makeChannel | .makePresenter | .refused => (.unborn, false, .unborn)
  | .makeView => (.alive, false, .unborn)
  | .initialise | .showView | .setStatus | .events => (.alive, true, .alive)
  | .destroyPresenter => (.alive, true, .destroyed)
  | .stopWorker | .join | .finished => (.destroyed, true, .destroyed)

/-- `Initialise` has returned, and the worker is not joined. -/
def initialised : Stage → Bool
  | .showView | .setStatus | .events | .destroyPresenter | .stopWorker | .join => true
  | _ => false

/-- The channel and the worker while the main thread is at `stage`. -/
structure LoopSane (stage : Stage) (l : Loop Unit) : Prop where
  handler : stage ≠ .makePresenter → l.channel.callbackHandler = some ()
  idle : l.channel.worker = none → l.pc = .head
  running : l.channel.worker.isSome = true → initialised stage = true

structure Sane (s : App) : Prop where
  objects : (s.presenter, s.viewSet, s.view) = objectsAt s.stage
  loop : ∀ l, s.loop = some l → LoopSane s.stage l

theorem LoopSane.later {stage stage' : Stage} {l : Loop Unit} (h : LoopSane stage l) (hp : stage ≠ .makePresenter)
    (hi : initialised stage = true → initialised stage' = true) : LoopSane stage' l :=
  ⟨fun _ => h.handler hp, h.idle, fun hw => hi (h.running hw)⟩

/-- Before `Initialise` there is no worker. -/
theorem LoopSane.no_worker {stage : Stage} {l : Loop Unit} (h : LoopSane stage l) (hi : initialised stage = false) :
    l.channel.worker = none := by
  cases hw : l.channel.worker with
  | none => rfl
  | some w => simp [h.running (by simp [hw])] at hi

theorem sane_start : Sane start := ⟨rfl, by simp [start]⟩

theorem sane_main (hs : Sane s) (h : MainStepped host s s') : Sane s' := by
  obtain ⟨ho, hloop⟩ := hs
  cases h with
  | makeChannel hst hw =>
    rw [hst] at ho
    refine ⟨ho, ?_⟩
    rintro l hl
    cases hl
    exact ⟨by simp, fun _ => rfl, by simp [Loop.start, hw]⟩
  | refuse hst =>
    rw [hst] at ho hloop
    exact ⟨ho, fun l hl => (hloop l hl).later (by simp) (by simp [initialised])⟩
  | @makePresenter l hst hl =>
    rw [hst] at ho hloop
    have hw := (hloop l hl).no_worker rfl
    refine ⟨?_, ?_⟩
    · simp only [objectsAt, Prod.mk.injEq] at ho ⊢
      exact ⟨trivial, ho.2⟩
    · rintro l' hl'
      cases hl'
      exact ⟨fun _ => rfl, fun _ => (hloop l hl).idle hw, by simp [setCallbackHandler, hw]⟩
  | makeView hst =>
    rw [hst] at ho hloop
    refine ⟨?_, fun l hl => (hloop l hl).later (by simp) (by simp [initialised])⟩
    simp only [objectsAt, Prod.mk.injEq] at ho ⊢
    exact ⟨ho.1, trivial⟩
  | @initialise l socket hst hl =>
    rw [hst] at ho hloop
    refine ⟨ho, ?_⟩
    rintro l' hl'
    cases hl'
    exact ⟨fun _ => (hloop l hl).handler (by simp), by simp [started], fun _ => rfl⟩
  | @initialiseAgain l hst hl hopen =>
    rw [hst] at ho hloop
    refine ⟨ho, ?_⟩
    rintro l' hl'
    cases hl'
    exact (hloop l hl).later (by simp) (fun _ => rfl)
  | showView hst | setStatus hst _ =>
    rw [hst] at ho hloop
    exact ⟨ho, fun l hl => (hloop l hl).later (by simp) (fun _ => rfl)⟩
  | destroyPresenter hst =>
    rw [hst] at ho hloop
    refine ⟨?_, fun l hl => (hloop l hl).later (by simp) (fun _ => rfl)⟩
    simp only [objectsAt, Prod.mk.injEq] at ho ⊢
    exact ⟨trivial, ho.2⟩
  | @stopWorker l hst hl =>
    rw [hst] at ho hloop
    refine ⟨ho, ?_⟩
    rintro l' hl'
    cases hl'
    obtain ⟨hh, hi, -⟩ := hloop l hl
    exact ⟨fun _ => hh (by simp), hi, fun _ => rfl⟩
  | join hst =>
    rw [hst] at ho
    exact ⟨ho, by simp⟩

theorem byWorker_ne {act : Act Unit} (ha : byWorker act = true) (h : Option Unit) : act ≠ .setCallbackHandler h := by
  rintro rfl
  cases ha

theorem sane_step (hs : Sane s) (h : s.step host a = some (s', o)) : Sane s' := by
  cases step_cases h with
  | main hm => exact sane_main hs hm
  | type | beginSend | endSend => exact ⟨hs.objects, hs.loop⟩
  | close hst =>
    obtain ⟨ho, hloop⟩ := hs
    rw [hst] at ho hloop
    refine ⟨?_, fun l hl => (hloop l hl).later (by simp) (fun _ => rfl)⟩
    simp only [objectsAt, Prod.mk.injEq] at ho ⊢
    exact ⟨ho.1, ho.2.1, trivial⟩
  | @worker act l loop calls hl hw ha hl' =>
    refine ⟨hs.objects, ?_⟩
    rintro l' hl''
    cases hl''
    obtain ⟨n, stop, hch⟩ := Loop.step_channel hl'
    rw [handlerAfter_of_ne (byWorker_ne ha)] at hch
    obtain ⟨hh, -, hr⟩ := hs.loop l hl
    have hw' : loop.channel.worker.isSome = true := by rw [hch]; exact hw
    refine ⟨fun hp => by rw [hch]; exact hh hp, ?_, fun _ => hr hw⟩
    intro hn
    rw [hn] at hw'
    cases hw'

/-- What holds of every state of the application's life. -/
theorem run_sane {as : List AppAct} (hrun : run (app host) start as = some (s, uses)) : Sane s :=
  run_invariant Sane (fun _ _ _ _ => sane_step) sane_start hrun

/-- While the view exists, so does the presenter, and `view_` is set. -/
theorem Sane.alive (hs : Sane s) (hv : s.view = .alive) : s.presenter = .alive ∧ s.viewSet = true := by
  have ho := hs.objects
  rw [hv] at ho
  cases hst : s.stage <;> simp [hst, objectsAt] at ho <;> exact ho

/-- A worker finds `view_` set, to a view that exists or is destroyed. -/
theorem Sane.viewSet_of_worker (hs : Sane s) {l : Loop Unit} (hl : s.loop = some l)
    (hw : l.channel.worker.isSome = true) : s.viewSet = true ∧ (s.view = .alive ∨ s.view = .destroyed) := by
  have hi := (hs.loop l hl).running hw
  have ho := hs.objects
  cases hst : s.stage <;> simp [hst, initialised] at hi <;> simp [hst, objectsAt] at ho <;> simp [ho]

/-- A worker calls the presenter. -/
theorem Sane.handler_of_worker (hs : Sane s) {l : Loop Unit} (hl : s.loop = some l)
    (hw : l.channel.worker.isSome = true) : l.channel.callbackHandler = some () := by
  apply (hs.loop l hl).handler
  intro hst
  have hi := (hs.loop l hl).running hw
  simp [hst, initialised] at hi

/-! ## Calls while the view exists -/

/-- No message is received once the view is destroyed, and the frame is not closed between the receipt
of a message and its hand-over. -/
def quiet (s : App) : AppAct → Bool
  | .worker (.recv a) => s.view = .alive || (message a).isNone
  | .close => s.loop.all fun l => l.callOwed.isEmpty
  | _ => true

/-- A message that is not handed over yet finds the view. -/
def Held (s : App) : Prop := ∀ l, s.loop = some l → l.callOwed ≠ [] → s.view = .alive

theorem held_start : Held start := by simp [Held, start]

theorem held_main (hs : Sane s) (hh : Held s) (h : MainStepped host s s') : Held s' := by
  cases h with
  | makeChannel _ _ =>
    rintro l hl howed
    cases hl
    exact absurd rfl howed
  | @makePresenter l hst hl =>
    have hloop := hs.loop l hl
    rw [hst] at hloop
    have hpc := hloop.idle (hloop.no_worker rfl)
    rintro l' hl' howed
    cases hl'
    exact absurd (by simp [Loop.callOwed, hpc]) howed
  | makeView _ => exact fun _ _ _ => rfl
  | @initialise l _ _ hl | @stopWorker l _ hl =>
    rintro l' hl' howed
    cases hl'
    exact hh l hl howed
  | @initialiseAgain l _ hl _ =>
    rintro l' hl' howed
    cases hl'
    exact hh l hl howed
  | refuse _ | showView _ | setStatus _ _ | destroyPresenter _ => exact hh
  | join _ => simp [Held]

/-- What a worker hands over now or owes afterwards was received while the view existed. -/
theorem view_of_call (hh : Held s) {act : Act Unit} {l loop : Loop Unit} {calls : List (Unit × Bytes)}
    (hl : s.loop = some l) (ha : byWorker act = true) (hs : l.step act = some (loop, calls))
    (hq : s.quiet (.worker act) = true) {x : Unit × Bytes} (hx : x ∈ calls ++ loop.callOwed) : s.view = .alive := by
  rw [(Loop.step_calls (Loop.handlerBetween_of_ne (byWorker_ne ha) l) hs).1] at hx
  rcases List.mem_append.1 hx with hx | hx
  · exact hh l hl (List.ne_nil_of_mem hx)
  · cases act with
    | recv a =>
      rcases Bool.or_eq_true_iff.1 hq with hv | hm
      · exact of_decide_eq_true hv
      · simp [callsDue, Option.isNone_iff_eq_none.1 hm] at hx
    | _ => cases hx

theorem quiet_step (hs : Sane s) (hh : Held s) (hq : s.quiet a = true) (h : s.step host a = some (s', o)) :
    Held s' ∧ ∀ u ∈ o, u.Valid := by
  cases step_cases h with
  | main hm => exact ⟨held_main hs hh hm, by simp⟩
  | type | beginSend | endSend => exact ⟨hh, by simp⟩
  | close _ =>
    refine ⟨?_, by simp⟩
    rintro l (hl : s.loop = some l) howed
    simp only [quiet, hl, Option.all_some] at hq
    exact absurd (List.isEmpty_iff.1 hq) howed
  | @worker act l loop calls hl hw ha hl' =>
    have hview : ∀ x ∈ calls ++ loop.callOwed, s.view = .alive := fun x => view_of_call hh hl ha hl' hq
    constructor
    · rintro l' hl'' howed
      cases hl''
      obtain ⟨x, hx⟩ := List.exists_mem_of_ne_nil _ howed
      exact hview x (List.mem_append_right _ hx)
    · intro u hu
      obtain ⟨x, hx, rfl⟩ := List.mem_map.1 hu
      have hv := hview x (List.mem_append_left _ hx)
      obtain ⟨hp, hset⟩ := hs.alive hv
      exact ⟨hp, by simp [use, hset, hv]⟩

/-- What holds after every run of quiet steps. -/
theorem run_quiet {as : List AppAct} (hrun : run (guard (app host) quiet) start as = some (s, uses)) :
    Sane s ∧ Held s ∧ ∀ u ∈ uses, u.Valid := by
  refine run_induction (fun _ t out => Sane t ∧ Held t ∧ ∀ u ∈ out, u.Valid) ⟨sane_start, held_start, by simp⟩ ?_ hrun
  rintro _ t out a t' o - ⟨hs, hh, hout⟩ hstep
  obtain ⟨hq, hstep⟩ := guard_step.1 hstep
  obtain ⟨hh', ho⟩ := quiet_step hs hh hq hstep
  refine ⟨sane_step hs hstep, hh', ?_⟩
  intro u hu
  exact (List.mem_append.1 hu).elim (hout u) (ho u)

/-- A message that was received can be handed over at once, to the objects as they are. -/
theorem call_now {l : Loop Unit} (hl : s.loop = some l) (hw : l.channel.worker.isSome = true)
    (hh : l.channel.callbackHandler = some ()) (hpc : l.pc = .count ∨ l.pc = .call) :
    ∃ bs t, run (app host) s bs = some (t, [s.use ((), l.buffer)]) := by
  rcases hpc with hpc | hpc
  · exact ⟨[.worker .count, .worker .call], _, by
      simp [run, app, step, workerStep, hl, hw, byWorker, Loop.step, hpc, hh, use]; rfl⟩
  · exact ⟨[.worker .call], _, by
      simp [run, app, step, workerStep, hl, hw, byWorker, Loop.step, hpc, hh, use]; rfl⟩

theorem owed_of_not_quiet (hq : s.quiet .close = false) : ∃ l, s.loop = some l ∧ l.callOwed ≠ [] := by
  cases hl : s.loop with
  | none => simp [quiet, hl] at hq
  | some l => exact ⟨l, rfl, by simpa [quiet, hl] using hq⟩

/-- Where a step is not quiet, the worker can go on to call `OnMessageReceived` on a destroyed view. -/
theorem noisy_step (hs : Sane s) (hq : s.quiet a = false) (h : s.step host a = some (s', o)) :
    ∃ bs t u, run (app host) s' bs = some (t, [u]) ∧ u.view = some .destroyed := by
  cases step_cases h with
  | main _ | type | beginSend | endSend => cases hq
  | close hst =>
    obtain ⟨l, hl, howed⟩ := owed_of_not_quiet hq
    have hpc := Loop.pc_of_callOwed howed
    have hw : l.channel.worker.isSome = true := by
      rw [Option.isSome_iff_ne_none]
      intro hw
      rcases hpc with hpc | hpc <;> simp [(hs.loop l hl).idle hw] at hpc
    have hh := hs.handler_of_worker hl hw
    have hset := (hs.viewSet_of_worker hl hw).1
    obtain ⟨bs, t, hrun⟩ :=
      @call_now host { s with stage := .destroyPresenter, view := .destroyed } l hl hw hh hpc
    exact ⟨bs, t, _, hrun, by simp [use, hset]⟩
  | @worker act l loop calls hl hw ha hl' =>
    cases act with
    | recv a =>
      obtain ⟨hv, hm⟩ := Bool.or_eq_false_iff.1 hq
      obtain ⟨hset, hview⟩ := hs.viewSet_of_worker hl hw
      have hdead := hview.resolve_left (of_decide_eq_false hv)
      cases Loop.step_cases hl'
      have hm' : (message a).isSome = true := by simpa [← Option.not_isSome] using hm
      have hh := hs.handler_of_worker hl hw
      obtain ⟨bs, t, hrun⟩ := @call_now host
        { s with
          loop := some { l with buffer := (message a).getD l.buffer, pc := if (message a).isSome then .count else .sleep }
          window := handOver s.window [] } _ rfl hw hh (.inl (by simp [hm']))
      exact ⟨bs, t, _, hrun, by simp [use, hset, hdead]⟩
    | _ => cases hq

end App

/-- **No call meets a destroyed object.** In every interleaving of the application's life in which no
message is received once the view is destroyed, and the frame is not closed between the receipt of a
message and its hand-over, every call of `OnMessageReceived` finds the presenter and the view. At any
step that breaks this condition, the worker can go on to a call that finds the view destroyed. -/
theorem calls_find_view (host : Host) :
    (∀ as s uses, run (guard (app host) App.quiet) .start as = some (s, uses) → ∀ u ∈ uses, u.Valid) ∧
    ∀ as s uses a s' o, run (app host) .start as = some (s, uses) → s.quiet a = false →
      s.step host a = some (s', o) → ∃ bs t u, run (app host) s' bs = some (t, [u]) ∧ u.view = some .destroyed := by
  constructor
  · intro as s uses hrun
    exact (App.run_quiet hrun).2.2
  · intro as s uses a s' o hrun hq hstep
    exact App.noisy_step (App.run_sane hrun) hq hstep

/-- `Bind` succeeds at the third attempt. -/
def host : Host := ⟨[lit "chatter_app", lit "127.0.0.1:2000", lit "127.0.0.1:2001"], loopback, twoSockets, 4⟩

/-- Up to the first event. -/
def startUp : List AppAct := List.replicate 6 .main

/-- An iteration of the worker in which `text` arrives. -/
def iteration (text : String) : List AppAct :=
  [.worker .test, .worker (.recv (datagram text)), .worker .count, .worker .call, .worker .sleep]

/-- The members of `MywxApp` are destroyed. -/
def shutDown : List AppAct := [.main, .main, .worker .test, .main]

set_option maxRecDepth 8000 in
theorem calls_find_view_one_message : ∃ s uses,
    run (guard (app host) App.quiet) .start (startUp ++ iteration "hi" ++ [.close] ++ shutDown) = some (s, uses) ∧
      s.stage = .finished ∧ uses = [⟨.alive, some .alive, lit "hi"⟩] ∧ ∀ u ∈ uses, u.Valid := by
  have hrun : ∃ s uses, run (guard (app host) App.quiet) .start (startUp ++ iteration "hi" ++ [.close] ++ shutDown) =
      some (s, uses) ∧ s.stage = .finished ∧ uses = [⟨.alive, some .alive, lit "hi"⟩] := ⟨_, _, rfl, rfl, rfl⟩
  obtain ⟨s, uses, hrun, hst, huses⟩ := hrun
  exact ⟨s, uses, hrun, hst, huses, (calls_find_view host).1 _ _ _ hrun⟩

set_option maxRecDepth 8000 in
/-- A datagram arrives after the frame was closed, and another one after the presenter was destroyed. -/
theorem late_messages_handed_over : ∃ s,
    run (app host) .start (startUp ++ [.close] ++ iteration "hi" ++ [.main] ++ iteration "yo" ++
      [.main, .worker .test, .main]) =
        some (s, [⟨.alive, some .destroyed, lit "hi"⟩, ⟨.destroyed, some .destroyed, lit "yo"⟩]) ∧
      s.stage = .finished := ⟨_, rfl, rfl⟩

end CalcChatter.Chat

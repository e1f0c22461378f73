import CalcChatter.Chat.Lossy

/-!
# The Send button (Chatter.h:211-214; wxChatterApp.cpp:79-94)

`OnSendCommand` sends the message box as it is, also an empty one. What keeps a user from it is the button:
the window asks `CanSend` in its idle time, and a disabled button cannot be pressed. Between two of these
updates the button is as it was, also while the user types and after `OnSendCommand` has cleared the box.

| here | there |
| --- | --- |
| `getMessageLength` | `wxChatterView::GetMessageLength` (wxChatterApp.cpp:79); `lineLength` is `wxTextCtrl::GetLineLength` |
| `canSend`          | `ChatterPresenter::CanSend` (Chatter.h:211) |
| `updateUi`         | `OnButtonSendUpdateUI` (wxChatterApp.cpp:91) |
| `Windows`          | the session, and the two buttons |

`button_keeps_lines` is the law: nothing but a press after an update that has become stale sends a bare newline.
-/

namespace CalcChatter.Chat

open Cxx Lts UdpChatChannel Session

/-- `GetLineLength` gives an `int`, which becomes a `size_t`. -/
def ChatterView.getMessageLength (lineLength : Bytes → Int) (v : ChatterView) : UInt64 := .ofInt (lineLength v.getMessage)

def canSend (lineLength : Bytes → Int) (view : ChatterView) : Bool := decide (view.getMessageLength lineLength > 0)

/-- What is assumed of the toolkit: the message box has one line, and `GetLineLength(0)` is the length of the
text that `GetMessage` reads, an `int` that is 0 for the empty text only. -/
structure Measures (lineLength : Bytes → Int) : Prop where
  int : ∀ m, 0 ≤ lineLength m ∧ lineLength m < 2 ^ 31
  zero : ∀ m, lineLength m = 0 ↔ m = []

structure Windows where
  session : Session
  enabled : Bool → Bool     -- the Send buttons

inductive WindowAct where
  | chat (a : ChatAct)
  | updateUi (b : Bool)

variable {inetAddr : Bytes → UInt32} {lineLength : Bytes → Int}

namespace Windows

/-- Pressing the button is what calls `OnSendCommand`. -/
def allows (s : Windows) : ChatAct → Bool
  | .beginSend b => s.enabled b
  | _ => true

def step (inetAddr : Bytes → UInt32) (lineLength : Bytes → Int) (s : Windows) : WindowAct → Option (Windows × List Line)
  | .chat a =>
    if s.allows a then (s.session.step inetAddr a).map fun (session, o) => ({ s with session }, o) else none
  | .updateUi b =>
    if (s.session.side b).sending = none then
      some ({ s with enabled := Function.update s.enabled b (canSend lineLength (s.session.side b).view) }, [])
    else none

/-- A button is enabled when it is created. -/
def start (channel : Bool → UdpChatChannel Unit) : Windows := ⟨Session.start channel, fun _ => true⟩

end Windows

def windows (inetAddr : Bytes → UInt32) (lineLength : Bytes → Int) : Machine Windows WindowAct Line :=
  ⟨Windows.step inetAddr lineLength⟩

/-- What an action does to the session. -/
def WindowAct.chatAct : WindowAct → Option ChatAct
  | .chat a => some a
  | .updateUi _ => none

/-- Whether the message box of `b` may have changed since the last update of its button. -/
def staleAfter (b : Bool) (stale : Bool) : WindowAct → Bool
  | .updateUi c => stale && c != b
  | .chat (.type c _) | .chat (.endSend c _) => stale || c == b
  | .chat _ => stale

def stale (b : Bool) (acts : List WindowAct) : Bool := acts.foldl (staleAfter b) true

/-- The user types `m`, the button is updated, and the user presses it. -/
def sendText (b : Bool) (m : Bytes) : List WindowAct := [.chat (.type b m), .updateUi b, .chat (.beginSend b)]

/-- Every press of a button comes after an update of it, with nothing typed and nothing sent in between. -/
def Prompt (acts : List WindowAct) : Prop :=
  ∀ i b, acts[i]? = some (.chat (.beginSend b)) → stale b (acts.take i) = false

@[simp] theorem ChatterView.getMessage_setMessage (v : ChatterView) (m : Bytes) : (v.setMessage m).getMessage = m := rfl

theorem canSend_iff (hlen : Measures lineLength) (view : ChatterView) :
    canSend lineLength view = true ↔ view.message ≠ [] := by
  have hint := hlen.int view.message
  have hnat : (view.getMessageLength lineLength).toNat = (lineLength view.message).toNat := by
    rw [ChatterView.getMessageLength, ChatterView.getMessage, UInt64.ofInt, UInt64.toNat_ofNat']
    omega
  rw [canSend, decide_eq_true_iff, gt_iff_lt, UInt64.lt_iff_toNat_lt, hnat, ne_eq, ← hlen.zero, UInt64.toNat_zero]
  omega

theorem canSend_congr {view view' : ChatterView} (h : view'.message = view.message) :
    canSend lineLength view' = canSend lineLength view := by
  rw [canSend, canSend, ChatterView.getMessageLength, ChatterView.getMessageLength, ChatterView.getMessage, h]
  rfl

theorem stale_append (b : Bool) (acts : List WindowAct) (a : WindowAct) :
    stale b (acts ++ [a]) = staleAfter b (stale b acts) a := List.foldl_append

/-! ## What a step can do -/

namespace Session

variable {s s' : Session} {a : ChatAct} {o : List Line}

theorem message_handOver (view : ChatterView) (calls : List (Unit × Bytes)) :
    (handOver view calls).message = view.message :=
  List.foldlRecOn (motive := fun v : ChatterView => v.message = view.message) calls _ rfl fun _ h _ _ => h

/-- The message box changes when the user types and when `OnSendCommand` clears it. -/
theorem message_step (h : s.step inetAddr a = some (s', o)) {b : Bool} (htype : ∀ m, a ≠ .type b m)
    (hend : ∀ r, a ≠ .endSend b r) : (s'.side b).view.message = (s.side b).view.message := by
  cases step_cases h with
  | @type c m _ =>
    have hne : b ≠ c := fun e => htype m (e ▸ rfl)
    simp [hne]
  | @beginSend c _ => by_cases hb : b = c <;> simp [hb, Chat.beginSend, ChatterView.appendToChatHistory]
  | @endSend c r _ _ _ _ =>
    have hne : b ≠ c := fun e => hend r (e ▸ rfl)
    simp [hne]
  | @worker c _ _ _ _ _ => by_cases hb : b = c <;> simp [worked, hb, message_handOver]
  | @deliver c _ _ _ _ _ _ _ => by_cases hb : b = c <;> simp [worked, hb, message_handOver]
  | lose | duplicate _ => rfl

/-- The lines a user sends are appended where `OnSendCommand` starts. -/
theorem own_line (h : s.step inetAddr a = some (s', o)) {x : Line} (hx : x ∈ o) (hown : x.own = true) :
    a = .beginSend x.side ∧ x.text = (s.side x.side).view.message ++ [ch '\n'] := by
  have hcalls : ∀ (b : Bool) (calls : List (Unit × Bytes)), x ∉ callLines b calls := by
    intro b calls hmem
    obtain ⟨call, -, rfl⟩ := List.mem_map.1 hmem
    cases hown
  cases step_cases h with
  | beginSend _ =>
    obtain rfl := List.mem_singleton.1 hx
    exact ⟨rfl, rfl⟩
  | worker _ _ | deliver _ _ _ => exact absurd hx (hcalls _ _)
  | type _ | endSend _ _ | lose | duplicate _ => cases hx

end Session

namespace Windows

variable {s s' : Windows} {a : WindowAct} {o : List Line}

inductive Stepped (inetAddr : Bytes → UInt32) (lineLength : Bytes → Int) (s : Windows) :
    WindowAct → Windows → List Line → Prop where
  | chat {a session o} (hb : ∀ b, a = .beginSend b → s.enabled b = true)
      (h : s.session.step inetAddr a = some (session, o)) : Stepped inetAddr lineLength s (.chat a) { s with session } o
  | updateUi {b} : Stepped inetAddr lineLength s (.updateUi b)
      { s with enabled := Function.update s.enabled b (canSend lineLength (s.session.side b).view) } []

theorem step_cases (h : s.step inetAddr lineLength a = some (s', o)) : Stepped inetAddr lineLength s a s' o := by
  cases a with
  | chat a =>
    simp only [step] at h
    split at h
    · next hallow =>
      obtain ⟨⟨session, o⟩, hs, he⟩ := Option.map_eq_some_iff.1 h
      cases he
      refine .chat ?_ hs
      rintro b rfl
      exact hallow
    · cases h
  | updateUi b =>
    simp only [step] at h
    split at h <;> cases h
    exact .updateUi

/-- A button that is fresh after an action of the session was so before, and the box is as it was. -/
theorem not_stale_chat {b t : Bool} {a : ChatAct} (h : staleAfter b t (.chat a) = false) :
    t = false ∧ (∀ m, a ≠ .type b m) ∧ ∀ r, a ≠ .endSend b r := by
  refine ⟨?_, ?_, ?_⟩
  · cases a <;> simp_all [staleAfter]
  · rintro m rfl
    simp [staleAfter] at h
  · rintro r rfl
    simp [staleAfter] at h

/-- A button that is not stale shows what `CanSend` says now. -/
theorem fresh_step {b t : Bool} (hs : t = false → s.enabled b = canSend lineLength (s.session.side b).view)
    (h : s.step inetAddr lineLength a = some (s', o)) :
    staleAfter b t a = false → s'.enabled b = canSend lineLength (s'.session.side b).view := by
  intro hfresh
  cases step_cases h with
  | @updateUi c =>
    by_cases hb : b = c
    · simp [hb]
    · have ht : t = false := by simpa [staleAfter, Ne.symm hb] using hfresh
      simpa [hb] using hs ht
  | chat _ hstep =>
    obtain ⟨ht, htype, hend⟩ := not_stale_chat hfresh
    exact (hs ht).trans (canSend_congr (message_step hstep htype hend)).symm

end Windows

/-! ## Whole runs -/

section Runs

variable {channel : Bool → UdpChatChannel Unit} {acts : List WindowAct} {s : Windows} {out : List Line}

/-- The buttons only hold the users back. -/
theorem run_session (h : run (windows inetAddr lineLength) (.start channel) acts = some (s, out)) :
    run (chat inetAddr) (Session.start channel) (acts.filterMap WindowAct.chatAct) = some (s.session, out) := by
  rw [← List.filterMap_some (l := out)]
  refine run_projects Windows.session _ _ ?_ h
  intro t a t' o hstep
  rw [List.filterMap_some]
  cases Windows.step_cases hstep with
  | chat _ hs => exact run_one_iff.2 hs
  | updateUi => rfl

theorem run_fresh (h : run (windows inetAddr lineLength) (.start channel) acts = some (s, out)) (b : Bool) :
    stale b acts = false → s.enabled b = canSend lineLength (s.session.side b).view := by
  refine run_induction (fun acts s _ => stale b acts = false → s.enabled b = canSend lineLength (s.session.side b).view)
    (fun h => by cases h) ?_ h
  intro acts t out a t' o _ ih hstep
  rw [stale_append]
  exact Windows.fresh_step ih hstep

/-- Where every press is prompt, the user has written something. -/
theorem own_lines (hlen : Measures lineLength) (hprompt : Prompt acts)
    (h : run (windows inetAddr lineLength) (.start channel) acts = some (s, out)) {b : Bool} {m : Bytes}
    (hm : m ∈ lines b true out) : 2 ≤ m.length := by
  obtain ⟨x, hx, rfl⟩ := List.mem_map.1 hm
  obtain ⟨hx, hown⟩ : x ∈ out ∧ x.side = b ∧ x.own = true := by simpa using hx
  obtain ⟨pre, post, rfl⟩ := List.append_of_mem hx
  obtain ⟨before, a, after, t, t', o, o₁, o₂, rfl, hrun, hstep, -⟩ := run_shown h
  have hshown : x ∈ o₁ ++ x :: o₂ := List.mem_append_right _ List.mem_cons_self
  generalize o₁ ++ x :: o₂ = shown at hstep hshown
  cases Windows.step_cases hstep with
  | chat hb hs =>
    obtain ⟨rfl, htext⟩ := own_line hs hshown hown.2
    -- the button could be pressed, and it showed what `CanSend` says
    have hfresh := hprompt before.length x.side (by simp)
    have hsend := hb _ rfl
    rw [run_fresh hrun _ (by simpa using hfresh), canSend_iff hlen] at hsend
    have hpos := List.length_pos_iff.2 hsend
    rw [htext, List.length_append, List.length_singleton]
    omega
  | updateUi => cases hshown

/-- After an update, exactly the texts that are not empty can be sent. -/
theorem run_sendText (hlen : Measures lineLength) {b : Bool} (hs : (s.session.side b).sending = none) (m : Bytes) :
    (m = [] → run (windows inetAddr lineLength) s (sendText b m) = none) ∧
    (m ≠ [] → ∃ s', run (windows inetAddr lineLength) s (sendText b m) = some (s', [⟨b, true, m ++ [ch '\n']⟩])) := by
  have hcan : canSend lineLength ((s.session.side b).view.setMessage m) = true ↔ m ≠ [] := canSend_iff hlen _
  constructor
  · intro hm
    have hnot : canSend lineLength ((s.session.side b).view.setMessage m) = false := by simpa [hm] using hcan
    simp [sendText, run, windows, Windows.step, Windows.allows, Session.step, hs, hnot]
  · intro hm
    have hyes := hcan.2 hm
    simp [sendText, run, windows, Windows.step, Windows.allows, Session.step, hs, hyes, Chat.beginSend]

/-- **What the Send button is for.** For every run of two windows whose users type, press and wait for idle
time as they like, if `GetLineLength` measures the message box. It is a run of the session, with the same lines. From every state in which `OnSendCommand`
is not running, a text that is typed and followed by an update can be sent if and only if it is not empty. And
if every press is prompt, no user ever sends a bare newline, and none is shown or on its way to the peer. -/
theorem button_keeps_lines (hlen : Measures lineLength) (hj : Joined inetAddr channel)
    (h : run (windows inetAddr lineLength) (.start channel) acts = some (s, out)) :
    run (chat inetAddr) (Session.start channel) (acts.filterMap WindowAct.chatAct) = some (s.session, out) ∧
    (∀ b m, (s.session.side b).sending = none →
      (m = [] → run (windows inetAddr lineLength) s (sendText b m) = none) ∧
      (m ≠ [] → ∃ s', run (windows inetAddr lineLength) s (sendText b m) = some (s', [⟨b, true, m ++ [ch '\n']⟩]))) ∧
    (Prompt acts → ∀ b, (∀ m ∈ lines b true out, 2 ≤ m.length) ∧
      ∀ m ∈ lines b false out ++ s.session.pending b, 3 ≤ m.length) := by
  refine ⟨run_session h, fun b m hs => run_sendText hlen hs m, fun hprompt b => ⟨?_, ?_⟩⟩
  · exact fun m hm => own_lines hlen hprompt h hm
  · intro m hm
    -- what is received is the first 150 bytes of a line of the peer, and a newline
    obtain ⟨l, hl, rfl⟩ := List.mem_map.1 (run_known hj (run_session h) b hm)
    have hlong := own_lines hlen hprompt h hl
    rw [shown, List.length_append, List.length_take, List.length_singleton]
    omega

end Runs

/-- The length of a line, as far as it is an `int`. -/
def intLength (m : Bytes) : Int := min m.length (2 ^ 31 - 1)

theorem measures_intLength : Measures intLength where
  int m := by rw [intLength]; omega
  zero m := by rw [intLength, ← List.length_eq_zero_iff]; omega

/-- The line `hi`, on its way. -/
def hiPressed : List WindowAct := sendText true (lit "hi") ++ [.chat (.endSend true (.success ⟨0x0100007f, 4000⟩))]

theorem prompt_hiPressed : Prompt hiPressed
  | 2, _, h => by cases h; rfl
  | 0, _, h | 1, _, h | 3, _, h => by cases h
  | n + 4, _, h => by cases h

set_option maxRecDepth 4000 in
/-- The line `hi`, and a second press before the next update: the peer will be sent a bare newline. -/
theorem button_keeps_lines_second_press : ∃ s s' out,
    run (windows loopback intLength) (.start pair) hiPressed = some (s, out) ∧
    (∀ m ∈ s.session.pending false, 3 ≤ m.length) ∧ run (windows loopback intLength) s (sendText true []) = none ∧
    run (windows loopback intLength) s [.chat (.beginSend true)] = some (s', [⟨true, true, lit "\n"⟩]) := by
  have hrun : ∃ s s' out, run (windows loopback intLength) (.start pair) hiPressed = some (s, out) ∧
      (s.session.side true).sending = none ∧
      run (windows loopback intLength) s [.chat (.beginSend true)] = some (s', [⟨true, true, lit "\n"⟩]) :=
    ⟨_, _, _, rfl, rfl, rfl⟩
  obtain ⟨s, s', out, hrun, hs, hagain⟩ := hrun
  obtain ⟨-, hsend, hkeep⟩ := button_keeps_lines measures_intLength joined_pair hrun
  refine ⟨s, s', out, hrun, ?_, (hsend true [] hs).1 rfl, hagain⟩
  exact fun m hm => (hkeep prompt_hiPressed false).2 m (List.mem_append_right _ hm)

end CalcChatter.Chat

import CalcChatter.Chat.Presenter

/-!
# Sends that fail (Chatter.h:134-137, :202-209; transport.h:144-168)

`sendto` can fail, and `SendTo` returns its code; `SendMessage` drops it. `OnSendCommand` appends the
line to the history before it sends and clears the message box afterwards, so a line whose send fails
is in the history all the same and its text is gone. `run_window` says what a sequence of commands
does, and `sends_recorded_iff` when the history holds exactly the lines that were sent.
-/

namespace CalcChatter.Chat

open Cxx Lts UdpChatChannel

variable {H : Type} {inetAddr : Bytes → UInt32}

/-- The user types `text` and sends it; `outcome` is what `sendto` reports. -/
structure SendCommand where
  text : Bytes
  outcome : Sent
deriving DecidableEq

/-- What one command did: the line it added, whether `sendto` succeeded, and the box afterwards. -/
structure SendRecord where
  typed : Bytes
  line : Bytes
  sent : Bool
  box : Bytes
deriving DecidableEq

/-- The window of a presenter on `channel`. -/
def window (inetAddr : Bytes → UInt32) (channel : UdpChatChannel H) : Machine ChatterView SendCommand SendRecord where
  step view cmd := do
    let view := view.setMessage cmd.text
    let (view', datagram) ← onSendCommand inetAddr channel view cmd.outcome
    return (view', [⟨cmd.text, (beginSend view).1, datagram.isSome, view'.message⟩])

/-- The system sends, the socket was made, and a datagram holds the text and the newline. -/
def Succeeds (s : UdpSocket) (cmd : SendCommand) : Prop :=
  cmd.outcome ≠ .error ∧ s.sockfd ≠ invalidSocket ∧ cmd.text.length + 1 ≤ maxPayload

instance (s : UdpSocket) (cmd : SendCommand) : Decidable (Succeeds s cmd) := inferInstanceAs (Decidable (_ ∧ _ ∧ _))

/-- What a command leaves, whatever `sendto` reports. -/
def record (s : UdpSocket) (cmd : SendCommand) : SendRecord :=
  ⟨cmd.text, cmd.text ++ [ch '\n'], decide (Succeeds s cmd), []⟩

theorem onSendCommand_eq {channel : UdpChatChannel H} {s : UdpSocket} (hs : channel.sendSocket = some s)
    (view : ChatterView) (r : Sent) : onSendCommand inetAddr channel view r =
      some (⟨[], view.chatHistory ++ [view.message ++ [ch '\n']]⟩,
        (s.sendTo inetAddr channel.peerIp (view.message ++ [ch '\n']) r).2) := by
  simp [onSendCommand, beginSend, endSend, sendMessage, hs, ChatterView.getMessage, ChatterView.setMessage,
    ChatterView.appendToChatHistory]

theorem sendTo_isSome_iff (s : UdpSocket) (destIp : Bytes) (cmd : SendCommand) :
    (s.sendTo inetAddr destIp (cmd.text ++ [ch '\n']) cmd.outcome).2.isSome = true ↔ Succeeds s cmd := by
  rw [Option.isSome_iff_ne_none, ne_eq, UdpSocket.sendTo_none_iff, List.length_append, List.length_singleton]
  simp only [not_or, Nat.not_lt, Succeeds, ne_eq]

theorem window_step {channel : UdpChatChannel H} {s : UdpSocket} (hs : channel.sendSocket = some s)
    (view : ChatterView) (cmd : SendCommand) : (window inetAddr channel).step view cmd =
      some (⟨[], view.chatHistory ++ [(record s cmd).line]⟩, [record s cmd]) := by
  have hsent : (s.sendTo inetAddr channel.peerIp (cmd.text ++ [ch '\n']) cmd.outcome).2.isSome =
      decide (Succeeds s cmd) := by
    rw [Bool.eq_iff_iff, decide_eq_true_iff]
    exact sendTo_isSome_iff s channel.peerIp cmd
  simp only [window, onSendCommand_eq hs]
  simp [record, beginSend, ChatterView.setMessage, ChatterView.getMessage, hsent]

/-- Every command adds its line and empties the box. -/
theorem run_window {channel : UdpChatChannel H} {s : UdpSocket} (hs : channel.sendSocket = some s) :
    ∀ (cmds : List SendCommand) (view : ChatterView), ∃ view', run (window inetAddr channel) view cmds =
      some (view', cmds.map (record s)) ∧ view'.chatHistory = view.chatHistory ++ cmds.map fun cmd => (record s cmd).line
  | [], view => ⟨view, rfl, by simp⟩
  | cmd :: cmds, view => by
    obtain ⟨view', hrun, hhist⟩ := run_window hs cmds ⟨[], view.chatHistory ++ [(record s cmd).line]⟩
    refine ⟨view', ?_, by simp [hhist]⟩
    rw [run_cons_iff]
    exact ⟨_, _, _, window_step hs view cmd, hrun, rfl⟩

/-- The lines of the records that pass a test are all lines only if all pass. -/
theorem lines_filter_iff (out : List SendRecord) (h : List Bytes) :
    h ++ out.map (·.line) = h ++ (out.filter (·.sent)).map (·.line) ↔ ∀ x ∈ out, x.sent = true := by
  rw [List.append_cancel_left_eq]
  constructor
  · intro heq
    have hlen := congrArg List.length heq
    rw [List.length_map, List.length_map] at hlen
    exact List.length_filter_eq_length_iff.1 hlen.symm
  · intro hall
    rw [List.filter_eq_self.2 hall]

/-- **When no send fails silently.** For every sequence of texts typed and sent and every sequence of
outcomes of `sendto`: the lines added to the history are exactly those whose `sendto` succeeded, and
the box still holds the text after every send that failed, if and only if none failed. -/
theorem sends_recorded_iff {channel : UdpChatChannel H} {s : UdpSocket} (hs : channel.sendSocket = some s)
    (view : ChatterView) (cmds : List SendCommand) :
    (∀ cmd, (s.sendTo inetAddr channel.peerIp (cmd.text ++ [ch '\n']) cmd.outcome).1 ≠ socketError ↔ Succeeds s cmd) ∧
    ∃ view' out, run (window inetAddr channel) view cmds = some (view', out) ∧
      out.map (·.typed) = cmds.map (·.text) ∧
      (view'.chatHistory = view.chatHistory ++ (out.filter (·.sent)).map (·.line) ∧
          (∀ x ∈ out, x.sent = false → x.box = x.typed) ↔
        ∀ cmd ∈ cmds, Succeeds s cmd) := by
  constructor
  · intro cmd
    rw [ne_eq, UdpSocket.sendTo_fails_iff, ← ne_eq, ← Option.isSome_iff_ne_none]
    exact sendTo_isSome_iff s channel.peerIp cmd
  · obtain ⟨view', hrun, hhist⟩ := @run_window H inetAddr channel s hs cmds view
    refine ⟨view', _, hrun, by simp [record], ?_⟩
    have hlines : (cmds.map fun cmd => (record s cmd).line) = (cmds.map (record s)).map (·.line) := by simp
    have hsent : (∀ x ∈ cmds.map (record s), x.sent = true) ↔ ∀ cmd ∈ cmds, Succeeds s cmd := by simp [record]
    rw [hhist, hlines, lines_filter_iff, hsent]
    constructor
    · exact And.left
    · intro hall
      refine ⟨hall, ?_⟩
      intro x hx hfail
      rw [hsent.2 hall x hx] at hfail
      cases hfail

/-- Two texts, both sent. -/
def twoSends : List SendCommand :=
  [⟨lit "hi", .success ⟨0x0100007f, 4000⟩⟩, ⟨lit "yo", .success ⟨0x0100007f, 4000⟩⟩]

theorem sends_recorded_iff_two : ∃ view' out, run (window loopback sender) ⟨[], []⟩ twoSends = some (view', out) ∧
    view'.chatHistory = (out.filter (·.sent)).map (·.line) := by
  obtain ⟨-, view', out, hrun, -, hiff⟩ := @sends_recorded_iff Nat loopback sender _ rfl ⟨[], []⟩ twoSends
  exact ⟨view', out, hrun, (hiff.2 (by decide)).1⟩

/-- `sendto` fails: the line is in the history, and the box is empty. -/
theorem failed_send_recorded : ∃ view', run (window loopback sender) ⟨[], []⟩ [⟨lit "hi", .error⟩] =
    some (view', [⟨lit "hi", lit "hi\n", false, []⟩]) ∧ view'.chatHistory = [lit "hi\n"] ∧ view'.message = [] :=
  ⟨_, rfl, rfl, rfl⟩

end CalcChatter.Chat

import CalcChatter.Lib.Merge
import CalcChatter.Chat.Exchange

/-!
# Two users over a network that misbehaves

The network may lose, delay, reorder and copy datagrams, but it makes none up: every line pending for
a view comes from a line its peer has appended before (`step_backed`). If it neither copies nor reorders,
the pending lines stay in the order in which they were sent (`step_ordered`), and what a view shows of
its peer is a part of what the peer sent, in order. `lossy_chat` is the law over all runs.
-/

namespace CalcChatter.Chat

open Cxx Lts UdpChatChannel Merging

variable {inetAddr : Bytes → UInt32}

namespace Session

variable {s s' : Session} {a : ChatAct} {o : List Line}

/-- Nothing is copied, and the datagram delivered is the first one in flight to its side. -/
def inOrder (s : Session) : ChatAct → Bool
  | .duplicate _ => false
  | .deliver b i => (s.flight.take i).all fun d => s.boundTo b ≠ some d.dst
  | _ => true

/-! ## The accounts of a network that loses datagrams -/

theorem pending_eq (h : s.step inetAddr a = some (s', o)) (b : Bool) : s'.pending b =
    owedLines (s'.side b).loop ++ ((s'.flight.filter fun d => s.boundTo b = some d.dst).map (·.payload)).map shown ++
      (s'.side !b).sending.toList.map shown := by
  rw [pending, towards, boundTo_step h b]

/-- A step that is not lossless loses a datagram, copies one, or is a `sendto` that fails: nothing is
shown, nothing new is pending, and the order changes only by a copy. -/
theorem step_unreliable (h : s.step inetAddr a = some (s', o)) (hless : lossless inetAddr s a ≠ true) (b : Bool) :
    o = [] ∧ (∀ l ∈ s'.pending b, l ∈ s.pending b) ∧
      ((∀ i, a ≠ .duplicate i) → (s'.pending b).Sublist (s.pending b)) := by
  have hkeep : ∀ {xs ys : List Bytes} {P : Prop}, xs.Sublist ys → (∀ l ∈ xs, l ∈ ys) ∧ (P → xs.Sublist ys) :=
    fun h => ⟨h.subset, fun _ => h⟩
  rw [pending_eq h b, pending, towards]
  cases step_cases h with
  | type _ | beginSend _ | worker _ _ | deliver _ _ _ => exact absurd rfl hless
  | @endSend c r msg sent hm hsend =>
    obtain rfl : sent = none := by
      cases sent with
      | none => rfl
      | some d => exact absurd (by simp [lossless, hm, hsend]) hless
    refine ⟨rfl, hkeep ?_⟩
    rcases self_or_peer b c with rfl | rfl
    · simp
    · simp
  | @lose i =>
    have hsub := ((filter_eraseIdx_sublist (fun d => s.boundTo b = some d.dst) s.flight i).map (·.payload)).map shown
    exact ⟨rfl, hkeep ((hsub.append_left _).append_right _)⟩
  | @duplicate i d hi =>
    refine ⟨rfl, ?_, fun hdup => absurd rfl (hdup i)⟩
    intro l hl
    -- the copy of `d` has the text of `d`
    have hd := List.mem_of_getElem? hi
    simp only [List.filter_append, List.map_append, List.mem_append, List.mem_map, List.mem_filter,
      List.mem_singleton] at hl ⊢
    rcases hl with (hl | hl | ⟨m, ⟨e, ⟨rfl, hfor⟩, rfl⟩, rfl⟩) | hl
    · exact .inl (.inl hl)
    · exact .inl (.inr hl)
    · exact .inl (.inr ⟨_, ⟨e, ⟨hd, hfor⟩, rfl⟩, rfl⟩)
    · exact .inr hl

/-- Whatever the network does: what `b` shows of its peer, and what is pending for it, was pending
before or has just been appended by its peer. -/
theorem step_backed (hs : Live inetAddr s) (h : s.step inetAddr a = some (s', o)) (b : Bool) :
    lines b false o ++ s'.pending b ⊆ s.pending b ++ (lines (!b) true o).map shown := by
  by_cases hless : lossless inetAddr s a = true
  · exact (step_conserves hs hless h b).subset
  · obtain ⟨rfl, hsub, -⟩ := step_unreliable h hless b
    intro l hl
    exact List.mem_append_left _ (hsub l (by simpa using hl))

/-- A step that shows something received shows nothing else. -/
theorem no_own_line (h : s.step inetAddr a = some (s', o)) {x : Line} (hx : x ∈ o) (hrecv : x.own = false) (b : Bool) :
    lines b true o = [] := by
  cases step_cases h with
  | beginSend _ =>
    obtain rfl := List.mem_singleton.1 hx
    cases hrecv
  | worker _ _ | deliver _ _ _ => simp [lines_callLines]
  | type _ | endSend _ _ | lose | duplicate _ => rfl

/-- Without copies and reordering, what `b` shows of its peer and what is pending for it stays in the
order in which the peer appended it. -/
theorem step_ordered (hs : Live inetAddr s) (hord : inOrder s a = true) (h : s.step inetAddr a = some (s', o))
    (b : Bool) : (lines b false o ++ s'.pending b).Sublist (s.pending b ++ (lines (!b) true o).map shown) := by
  by_cases hless : lossless inetAddr s a = true
  · by_cases hdel : ∃ c i, a = .deliver c i
    · obtain ⟨c, i, rfl⟩ := hdel
      obtain ⟨d, hi, hfor, hown, hacc⟩ := deliver_account hs h b
      rw [hacc, hown, List.append_nil, pending, towards]
      by_cases hc : c = b
      · subst hc
        -- the datagram was the first one in flight to this side
        have hfirst := filter_eraseIdx_first hi (p := fun d => s.boundTo c = some d.dst) (by simpa using hfor)
          (by simpa [inOrder] using hord)
        rw [hfirst]
        simp
      · rw [filter_eraseIdx_of_false hi (by simpa [hfor] using hc)]
        simp [hc]
    · rw [step_account hs hless (fun c i he => hdel ⟨c, i, he⟩) h b]
  · have hdup : ∀ i, a ≠ .duplicate i := by
      rintro i rfl
      cases hord
    obtain ⟨rfl, -, hsub⟩ := step_unreliable h hless b
    simpa using hsub hdup

end Session

/-! ## Whole runs -/

open Session

/-- Every string received is the first 150 bytes of a string that the peer had appended before, and a
newline. -/
def Backed (out : List Line) : Prop :=
  ∀ pre x post, out = pre ++ x :: post → x.own = false → ∃ m ∈ lines (!x.side) true pre, x.text = shown m

section Runs

variable {channel : Bool → UdpChatChannel Unit} {acts : List ChatAct} {s : Session} {out : List Line}

/-- What is shown of the peer, and what is pending, comes from lines of the peer. -/
theorem run_known (hj : Joined inetAddr channel) (h : run (chat inetAddr) (start channel) acts = some (s, out))
    (b : Bool) : lines b false out ++ s.pending b ⊆ (lines (!b) true out).map shown :=
  run_account keepsAccounts_subset (fun s => s.pending b) (lines b false) (fun out => (lines (!b) true out).map shown)
    (pending_start channel b) ⟨rfl, by simp⟩ ⟨rfl, by simp⟩
    (fun _ _ _ _ _ _ hrun hstep => step_backed (run_live hj hrun) hstep b) h

theorem run_backed (hj : Joined inetAddr channel) (h : run (chat inetAddr) (start channel) acts = some (s, out)) :
    Backed out := by
  rintro pre x post rfl hrecv
  obtain ⟨before, a, after, t, t', o, o₁, o₂, rfl, hrun, hstep, rfl⟩ := run_shown h
  have hx : x ∈ o₁ ++ x :: o₂ := List.mem_append_right _ List.mem_cons_self
  have hmem : x.text ∈ lines x.side false (o₁ ++ x :: o₂) := by
    refine List.mem_map.2 ⟨x, List.mem_filter.2 ⟨hx, ?_⟩, rfl⟩
    simp [hrecv]
  have hl := step_backed (run_live hj hrun) hstep x.side (List.mem_append_left _ hmem)
  -- the step appends no line of a user, so the line was pending before
  rw [no_own_line hstep hx hrecv, List.map_nil, List.append_nil] at hl
  obtain ⟨m, hm, htext⟩ := List.mem_map.1 (run_known hj hrun x.side (List.mem_append_right _ hl))
  refine ⟨m, ?_, htext.symm⟩
  rw [lines_append]
  exact List.mem_append_left _ hm

theorem run_ordered (hj : Joined inetAddr channel)
    (h : run (guard (chat inetAddr) inOrder) (start channel) acts = some (s, out)) (b : Bool) :
    (lines b false out ++ s.pending b).Sublist ((lines (!b) true out).map shown) := by
  refine run_account keepsAccounts_sublist (fun s => s.pending b) (lines b false) (fun out => (lines (!b) true out).map shown)
    (pending_start channel b) ⟨rfl, by simp⟩ ⟨rfl, by simp⟩ ?_ h
  intro _ t out a t' o hrun hstep
  obtain ⟨hord, hstep⟩ := guard_step.1 hstep
  exact step_ordered (run_live hj (run_guard hrun)) hord hstep b

/-- A history is a merge of its own lines and the received ones. -/
theorem history_merge (out : List Line) (b : Bool) :
    Merge (lines b true out) (lines b false out) ((out.filter (·.side == b)).map (·.text)) := by
  have hmerge := (merge_filter (·.own) (out.filter (·.side == b))).map (·.text)
  simp only [List.filter_filter] at hmerge
  simpa [lines, Bool.and_comm] using hmerge

end Runs

/-- **What two users see of each other.** Two presenters on joined channels, whatever the users and
the workers do. Over any network, every string received is the first 150 bytes of a string that the
peer's `OnSendCommand` had appended before, and a newline. Over a network that neither copies nor
reorders, the strings received are those of a part of the strings the peer sent, in order, and a
history is a merge of its own lines with these. -/
theorem lossy_chat {channel : Bool → UdpChatChannel Unit} (hj : Joined inetAddr channel) :
    (∀ acts s out, run (chat inetAddr) (start channel) acts = some (s, out) →
      (∀ b, (s.side b).view.chatHistory = (out.filter (·.side == b)).map (·.text)) ∧
      ∀ pre x post, out = pre ++ x :: post → x.own = false →
        ∃ m ∈ lines (!x.side) true pre, x.text = m.take 150 ++ [ch '\n']) ∧
    ∀ acts s out, run (guard (chat inetAddr) inOrder) (start channel) acts = some (s, out) →
      ∀ b, ∃ ms : List Bytes, ms.Sublist (lines (!b) true out) ∧ lines b false out = ms.map shown ∧
        Merge (lines b true out) (ms.map shown) (s.side b).view.chatHistory := by
  constructor
  · intro acts s out hrun
    exact ⟨run_history hrun, run_backed hj hrun⟩
  · intro acts s out hrun b
    have hsub := (List.sublist_append_left _ _).trans (run_ordered hj hrun b)
    obtain ⟨ms, hms, hlines⟩ := List.sublist_map_iff.1 hsub
    refine ⟨ms, hms, hlines, ?_⟩
    rw [run_history (run_guard hrun) b, ← hlines]
    exact history_merge out b

/-- Two messages, of which the first is lost. -/
def firstLost : List ChatAct :=
  [.type true (lit "hi"), .beginSend true, .endSend true (.success ⟨0x0100007f, 4000⟩), .lose 0,
    .type true (lit "yo"), .beginSend true, .endSend true (.success ⟨0x0100007f, 4000⟩),
    .worker false .test, .deliver false 0, .worker false .count, .worker false .call, .worker false .sleep]

set_option maxRecDepth 4000 in
theorem lossy_chat_first_lost : ∃ s out, ∃ ms : List Bytes,
    run (guard (chat loopback) inOrder) (start pair) firstLost = some (s, out) ∧
    lines false false out = ms.map shown ∧ ms.Sublist [lit "hi\n", lit "yo\n"] ∧
    ∃ m ∈ lines true true out, lit "yo\n\n" = m.take 150 ++ [ch '\n'] := by
  have hrun : ∃ s, run (guard (chat loopback) inOrder) (start pair) firstLost =
      some (s, [⟨true, true, lit "hi\n"⟩, ⟨true, true, lit "yo\n"⟩, ⟨false, false, lit "yo\n\n"⟩]) := ⟨_, rfl⟩
  obtain ⟨s, hrun⟩ := hrun
  obtain ⟨hany, hordered⟩ := lossy_chat joined_pair
  obtain ⟨ms, hms, hlines, -⟩ := hordered _ _ _ hrun false
  obtain ⟨m, hm, htext⟩ := (hany _ _ _ (run_guard hrun)).2 [⟨true, true, lit "hi\n"⟩, ⟨true, true, lit "yo\n"⟩]
    ⟨false, false, lit "yo\n\n"⟩ [] rfl rfl
  exact ⟨s, _, ms, hrun, hlines, hms, m, hm, htext⟩

end CalcChatter.Chat

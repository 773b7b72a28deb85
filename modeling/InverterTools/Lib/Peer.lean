import InverterTools.Lib.Bytes

/-! # A peer that answers every message

A peer sits at the far end of a channel.  Messages are lists ended by a stop symbol, and symbols
that fill the channel between them do not count; for each message the peer moves to a new state and
queues one answer.  `Link` is what the near end cannot see: the state of the peer, the message it is
in the middle of, and the answers nobody has read yet.

The rules say how the queue grows: it only ever gets longer (`queue_isPrefix_receive`), one message
adds one answer (`receive_message`), and the first answer an idle link delivers belongs to the
first message sent on it (`first_answer`). -/

namespace InverterTools

/-- A peer: it answers a message by a message, both written without their stop symbol, and skips
what fills the channel in front of it. -/
structure Peer (σ α : Type) (stop fill : α) where
  respond : σ → List α → σ × List α
  stop_notMem : ∀ s m, stop ∉ m → stop ∉ (respond s m).2
  respond_fill : ∀ s m, respond s (fill :: m) = respond s m

/-- The far end of a channel. -/
structure Link (σ α : Type) where
  state : σ
  inbox : List α
  queue : List α

namespace Link

variable {σ α : Type}

/-- The link after `n` symbols have been read from it. -/
def read (l : Link σ α) (n : ℕ) : Link σ α := { l with queue := l.queue.drop n }

variable [DecidableEq α]

/-- The part of a message that has got through, behind what fills the channel. -/
def begun (fill : α) (l : Link σ α) : List α := l.inbox.dropWhile (· = fill)

/-- Nothing is half sent and nothing is unread. -/
def Idle (fill : α) (l : Link σ α) : Prop := l.begun fill = [] ∧ l.queue = []

theorem begun_eq_nil_iff {fill : α} {l : Link σ α} :
    l.begun fill = [] ↔ ∀ a ∈ l.inbox, a = fill := by
  simp [begun, List.dropWhile_eq_nil_iff]

theorem begun_append {fill : α} {l : Link σ α} (hl : l.begun fill = []) (m : List α) :
    (l.inbox ++ m).dropWhile (· = fill) = m.dropWhile (· = fill) :=
  List.dropWhile_append_of_pos fun a ha => decide_eq_true (begun_eq_nil_iff.mp hl a ha)

end Link

namespace Peer

variable {σ α : Type} [DecidableEq α] {stop fill : α} (peer : Peer σ α stop fill)

/-- The peer gets one symbol. -/
def accept (l : Link σ α) (a : α) : Link σ α :=
  if a = stop then
    let answer := peer.respond l.state l.inbox
    ⟨answer.1, [], l.queue ++ answer.2 ++ [stop]⟩
  else { l with inbox := l.inbox ++ [a] }

/-- The peer gets the symbols of a list, one after the other. -/
def receive (l : Link σ α) (sent : List α) : Link σ α := sent.foldl peer.accept l

@[simp] theorem receive_nil (l : Link σ α) : peer.receive l [] = l := rfl

theorem receive_append (l : Link σ α) (s t : List α) :
    peer.receive l (s ++ t) = peer.receive (peer.receive l s) t :=
  List.foldl_append

theorem receive_of_notMem {m : List α} (hm : stop ∉ m) (l : Link σ α) :
    peer.receive l m = { l with inbox := l.inbox ++ m } := by
  induction m generalizing l with
  | nil => simp
  | cons a m ih =>
      rw [List.mem_cons, not_or] at hm
      have hstep : peer.receive l (a :: m) = peer.receive (peer.accept l a) m := rfl
      rw [hstep, ih hm.2, accept, if_neg (Ne.symm hm.1)]
      simp

/-- What fills the channel makes no difference to the answer. -/
theorem respond_dropWhile (s : σ) (m : List α) :
    peer.respond s (m.dropWhile (· = fill)) = peer.respond s m := by
  induction m with
  | nil => rfl
  | cons a m ih =>
      by_cases ha : a = fill
      · rw [List.dropWhile_cons, if_pos (decide_eq_true ha), ih, ha, peer.respond_fill]
      · rw [List.dropWhile_cons, if_neg (by simpa using ha)]

theorem respond_inbox {l : Link σ α} (hl : l.begun fill = []) (m : List α) :
    peer.respond l.state (l.inbox ++ m) = peer.respond l.state m := by
  rw [← respond_dropWhile, Link.begun_append hl, respond_dropWhile]

/-- One message adds one answer. -/
theorem receive_message {m : List α} (hm : stop ∉ m) {l : Link σ α} (hl : l.begun fill = []) :
    peer.receive l (m ++ [stop]) =
      ⟨(peer.respond l.state m).1, [], l.queue ++ (peer.respond l.state m).2 ++ [stop]⟩ := by
  rw [receive_append, receive_of_notMem peer hm, ← respond_inbox peer hl]
  simp [receive, accept]

theorem receive_filled (hfill : stop ≠ fill) {m : List α} (hm : stop ∉ m) {l : Link σ α}
    (hl : l.begun fill = []) (n : ℕ) :
    peer.receive l (m ++ [stop] ++ List.replicate n fill) =
      ⟨(peer.respond l.state m).1, List.replicate n fill,
        l.queue ++ (peer.respond l.state m).2 ++ [stop]⟩ := by
  rw [receive_append, receive_message peer hm hl, receive_of_notMem]
  · rfl
  · exact fun h => hfill (List.eq_of_mem_replicate h)

theorem begun_replicate {s : σ} {queue : List α} (n : ℕ) :
    (⟨s, List.replicate n fill, queue⟩ : Link σ α).begun fill = [] :=
  Link.begun_eq_nil_iff.mpr fun _ ha => List.eq_of_mem_replicate ha

theorem queue_isPrefix_receive (l : Link σ α) (sent : List α) :
    l.queue <+: (peer.receive l sent).queue := by
  induction sent generalizing l with
  | nil => exact List.prefix_rfl
  | cons a sent ih =>
      refine List.IsPrefix.trans ?_ (ih (peer.accept l a))
      unfold accept
      split_ifs
      · exact (List.prefix_append _ _).trans (List.prefix_append _ _)
      · exact List.prefix_rfl

/-- **The first answer on an idle link** belongs to the first message sent on it. -/
theorem first_answer {l : Link σ α} (hl : l.Idle fill) {sent body : List α} (hbody : stop ∉ body)
    (h : body ++ [stop] <+: (peer.receive l sent).queue) :
    ∃ m t, sent = m ++ stop :: t ∧ stop ∉ m ∧ body = (peer.respond l.state m).2 := by
  have hsent : stop ∈ sent := by
    by_contra hno
    rw [receive_of_notMem peer hno, hl.2] at h
    simpa using List.prefix_nil.mp h
  obtain ⟨m, t, rfl, hm⟩ := List.eq_append_cons_of_mem hsent
  refine ⟨m, t, rfl, hm, ?_⟩
  have hfirst : (peer.respond l.state m).2 ++ [stop] <+:
      (peer.receive l (m ++ stop :: t)).queue := by
    have hsplit : m ++ stop :: t = (m ++ [stop]) ++ t := by simp
    have hm' := receive_message peer hm hl.1
    rw [hl.2, List.nil_append] at hm'
    have hgrow := queue_isPrefix_receive peer (peer.receive l (m ++ [stop])) t
    rw [hsplit, receive_append]
    rwa [hm'] at hgrow ⊢
  -- both are prefixes of one list, and each has its only stop symbol at the end
  obtain ⟨u, hu⟩ := h
  obtain ⟨v, hv⟩ := hfirst
  rw [← hv, List.append_assoc, List.append_assoc] at hu
  exact eq_of_append_cons_eq hbody (peer.stop_notMem _ _ hm) hu

end Peer

end InverterTools

import DshProxy.InboxOverflow

/-! An inbox is bounded in frames, and a frame may be four times what the proxy
itself puts into one. Nothing counts the bytes: what waits in an inbox stays
within the window as long as the bridge keeps to its credit, and the bridge is
the only one to see to that. -/
namespace DshProxy.Mux
open Sync Wire Transitions

variable {s s' : Session} {t t' : Tunnel} {p : Proxy} {n : Nat}

/-- Payload bytes in the inbox that the receiver has not taken. -/
def Stream.backlog (st : Stream) : Nat := st.inbox.queue.flatten.length

theorem backlog_congr {st st' : Stream} (inbox : st'.inbox = st.inbox) : st'.backlog = st.backlog := by
  unfold Stream.backlog
  rw [inbox]

/-- The receiver taken away or a chunk taken out, an inbox does not grow. -/
theorem Move.backlog_le (move : Move s t act s' t') (known : n < s.created) :
    (s'.arena n).backlog ≤ (s.arena n).backlog := by
  have dropped (s : Session) (stream : Nat) :
      ((s.hangUp stream).arena n).backlog = (s.arena n).backlog := by
    by_cases same : n = stream
    · subst same
      simp [Session.hangUp, Session.modify, Stream.backlog]
    · simp [Session.hangUp, Session.modify, same]
  cases move with
  | reserve _ did =>
    obtain ⟨-, same⟩ := Option.ite_none_left_eq_some.mp did
    cases same
    exact Nat.le_refl _
  | insert id => rw [arena_insert s id known]
  | announce stream _ did => rw [enqueue_arena did]
  | giveUp stream => rw [dropped, arena_remove]
  | greeting stage next stream _ _ did => exact Nat.le_of_eq (backlog_congr (sendStep_inbox did n))
  | rejected stage stream _ _ did =>
    rw [dropped]
    exact Nat.le_of_eq (backlog_congr (sendStep_inbox did n))
  | closed stream _ _ did => rw [dropped, enqueue_arena did]
  | closeFails stream => exact Nat.le_of_eq (dropped s stream)
  | uplinkSend stage next stream _ _ did => exact Nat.le_of_eq (backlog_congr (sendStep_inbox did n))
  | recv stream chunk _ _ _ did =>
    obtain ⟨⟨first, inbox⟩, got, same⟩ := Option.map_eq_some_iff.mp did
    obtain ⟨-, waiting, -, -⟩ := Channel.recv_eq_some _ got
    cases same
    by_cases here : n = stream
    · subst here
      simp [Session.modify, Stream.backlog, waiting]
    · simp [Session.modify, here]
  | grant stream _ _ _ did => rw [enqueue_arena did]
  | leave stream => rw [arena_remove]
  | _ => exact Nat.le_refl _

/-- A stream whose bridge keeps to its credit holds no more than a window. -/
theorem Proxy.Credited.backlog_le (credited : p.Credited name)
    (own : (p.tunnels name).stream = some n) : (p.session.arena n).backlog ≤ window := by
  have honest := credited.honest n own
  have granted := (credited.sound.down own).granted_le
  have total := ledger_total (p.session.arena n).took
  obtain ⟨rest, more⟩ := (credited.sound.wired.fed n (credited.sound.known own)).front
  have split := (p.session.arena n).inbox.take_append_queue
  have bytes : (p.session.heard n).flatten.length =
      (p.session.arena n).took.flatten.length + (p.session.arena n).backlog + rest.flatten.length := by
    rw [← more, ← split]
    simp only [List.flatten_append, List.length_append, Stream.backlog, Stream.took]
  omega

/-- Where the bridge keeps to its credit on a tunnel's stream, what waits in the
inbox there is within the window in every state, however slowly the client
drains it and whatever frame sizes the bridge uses. -/
theorem inboxes_hold_a_window (maxStreams name : Nat) (actions : List ProxyAct)
    (honest : Meets Proxy.step (Proxy.Honest name) (.start maxStreams) actions) {p : Proxy}
    (ran : run Proxy.step (.start maxStreams) actions = some p)
    (own : (p.tunnels name).stream = some n) : (p.session.arena n).backlog ≤ window := by
  have credited : p.Credited name := by
    refine run_preserves_where (Proxy.Credited name) ?_ (.start maxStreams name) honest ran
    exact fun _ _ _ credited honest stepped => credited.step honest stepped
  exact credited.backlog_le own

theorem Proxy.Receiving.backlog {chunks : List Bytes} (receiving : p.Receiving chunks 0) :
    (p.session.arena 0).backlog = chunks.flatten.length := by
  rw [Stream.backlog, Channel.queue, receiving.accepted, receiving.taken, List.drop_zero]

/-- Four full records are what fits into a window, and wait for a client that
does not read. -/
theorem inboxes_hold_a_window_four :
    ∃ actions p, run Proxy.step (.start 1) actions = some p ∧
      Meets Proxy.step (Proxy.Honest 0) (.start 1) actions ∧ (p.tunnels 0).stream = some 0 ∧
      (p.session.arena 0).backlog = 4 * maxChunk ∧ (p.session.arena 0).backlog ≤ window := by
  obtain ⟨p, up, idle, -⟩ := tunnelUp_receiving
  obtain ⟨last, came, full, -, -, honest, -⟩ := idle.fills 4 fullRecord
    (Nat.le_of_eq fullRecord_length) (by decide)
  have allHonest := (honest_tunnel _ _).append up
    (honest (Nat.le_trans (by rw [fullRecord_length]; decide) (Nat.le_add_right _ _)))
  have whole := run_append.mpr ⟨p, up, came⟩
  refine ⟨_, last, whole, allHonest, full.own, ?_, inboxes_hold_a_window 1 0 _ allHonest whole full.own⟩
  rw [full.backlog, List.nil_append, fullRecords_length]

/-- Five full records, one after the other and without credit, are more than the
window in the inbox of a client that does not read; a thousand have a place. -/
theorem inbox_holds_more_than_a_window :
    ∃ actions p, run Proxy.step (.start 1) actions = some p ∧ (p.tunnels 0).stream = some 0 ∧
      window < (p.session.arena 0).backlog := by
  obtain ⟨p, up, idle, -⟩ := tunnelUp_receiving
  obtain ⟨last, came, full, -⟩ := idle.fills 5 fullRecord (Nat.le_of_eq fullRecord_length) (by decide)
  refine ⟨_, last, run_append.mpr ⟨p, up, came⟩, full.own, ?_⟩
  rw [full.backlog, List.nil_append, fullRecords_length]
  decide

end DshProxy.Mux

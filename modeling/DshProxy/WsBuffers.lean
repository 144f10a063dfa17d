import DshProxy.WsOutput

/-! What a client can make a `WsStream` hold. A socket read happens only while
less than one admissible frame is buffered, a frame is decoded only into an empty
`plain`, data is staged only on an empty `outgoing`, a pong only below the backlog
limit and a Close once; the three bounds hold together or not at all. -/
namespace DshProxy.Ws
open Transitions

/-- The bounds on the three buffers. -/
def WsStream.Within (s : WsStream) : Prop :=
  s.incoming.length ≤ maxFrame + 13 + 16 * 1024 ∧ s.plain.length ≤ maxFrame ∧
    s.outgoing.length ≤ maxSend + 12

/-- The bounds with what keeps them: a socket read brings at most a scratch
buffer, and there is room for one Close until there was one. -/
structure WsStream.Bounded (s : WsStream) : Prop where
  incoming : s.incoming.length ≤ maxFrame + 13 + scratchLen
  plain : s.plain.length ≤ maxFrame
  outgoing : s.outgoing.length ≤ maxSend + if s.closed then 12 else 10
  reads : ∀ bytes, .data bytes ∈ s.inner.reads → bytes.length ≤ scratchLen

variable {s t : WsStream}

theorem WsStream.Bounded.within (bounded : s.Bounded) : s.Within := by
  have outgoing := bounded.outgoing
  refine ⟨bounded.incoming, bounded.plain, ?_⟩
  split at outgoing <;> omega

/-- What is less than a frame is shorter than the longest one. -/
theorem scan_partly (found : scan incoming = .partly) : incoming.length ≤ maxFrame + 13 := by
  unfold scan at found
  split at found
  · rename_i first second rest
    dsimp only at found
    split at found
    · cases found
    · split at found
      · rename_i unread
        unfold declaredLength at unread
        split_ifs at unread <;> omega
      · rename_i length offset read
        have near : offset ≤ 10 := by
          unfold declaredLength at read
          split_ifs at read <;> simp at read <;> omega
        split_ifs at found <;> omega
  · rename_i short
    have none : incoming.length ≤ 1 := by
      match incoming with
      | [] => simp
      | [_] => simp
      | first :: second :: rest => exact absurd rfl (short first second rest)
    omega

/-- A frame the decoder takes has an admissible length. -/
theorem scan_whole (found : scan incoming = .whole opcode payload rest) :
    payload.length ≤ maxFrame ∧ rest.length ≤ incoming.length := by
  refine ⟨?_, Nat.le_of_lt (scan_shrinks found)⟩
  unfold scan at found
  split at found
  · dsimp only at found
    split at found
    · cases found
    · split at found
      · cases found
      · split_ifs at found
        cases found
        simp only [unmask, List.length_mapIdx, List.length_take]
        omega
  · cases found

theorem frameBytes_length (opcode : UInt8) (payload : Bytes) :
    (frameBytes opcode payload).length ≤ payload.length + 10 ∧
      (payload.length < 126 → (frameBytes opcode payload).length = payload.length + 2) := by
  unfold frameBytes
  refine ⟨?_, fun short => ?_⟩
  · split_ifs <;> simp <;> omega
  · simp [short]

theorem WsStream.Bounded.decode (bounded : s.Bounded) (empty : s.plain = []) : s.decode.1.Bounded := by
  obtain ⟨-, done⟩ | ⟨error, -, done⟩ | ⟨opcode, payload, rest, found, done⟩ := decode_cases s
  · rwa [done]
  · rwa [done]
  · obtain ⟨small, shorter⟩ := scan_whole found
    have incoming : rest.length ≤ maxFrame + 13 + scratchLen := Nat.le_trans shorter bounded.incoming
    have outgoing := bounded.outgoing
    obtain ⟨-, done⟩ | ⟨-, done⟩ | ⟨ping, done⟩ | ⟨-, done⟩ | ⟨-, done⟩ := done <;> rw [done]
    · exact ⟨incoming, by simpa [empty] using small, outgoing, bounded.reads⟩
    · refine ⟨incoming, bounded.plain, ?_, bounded.reads⟩
      dsimp only
      rw [if_pos rfl]
      split at outgoing <;> omega
    · refine ⟨incoming, bounded.plain, ?_, bounded.reads⟩
      dsimp only
      by_cases low : s.outgoing.length ≤ maxPongBacklog
      · have short : payload.length ≤ maxControl := scan_control found (by rw [ping]; decide)
        have pong := (frameBytes_length opPong payload).1
        rw [if_pos low, List.length_append]
        simp only [maxControl, maxPongBacklog, maxSend] at short low ⊢
        omega
      · rwa [if_neg low]
    · exact ⟨incoming, bounded.plain, outgoing, bounded.reads⟩
    · exact ⟨incoming, bounded.plain, outgoing, bounded.reads⟩

theorem WsStream.Bounded.drain (bounded : s.Bounded) (cx : Half) : (s.drain cx).1.Bounded := by
  have drained := drain_spec cx s
  have fewer : (s.drain cx).1.outgoing.length ≤ s.outgoing.length := by
    have moved := congrArg List.length drained.moved
    have grown := drained.grown.length_le
    simp only [List.length_append] at moved
    omega
  refine ⟨?_, ?_, ?_, ?_⟩
  · rw [drained.incoming]
    exact bounded.incoming
  · rw [drained.plain]
    exact bounded.plain
  · rw [drained.closed]
    exact Nat.le_trans fewer bounded.outgoing
  · rw [drained.reads]
    exact bounded.reads

/-- A socket read brings one of the answers the socket holds. -/
theorem socket_reads {socket inner : Socket} {result : Poll (Result Bytes)}
    (answer : socket.pollRead = (inner, result)) :
    (polled result = [] ∨ .data (polled result) ∈ socket.reads) ∧
      ∀ held ∈ inner.reads, held ∈ socket.reads := by
  unfold Socket.pollRead at answer
  split at answer
  · rename_i bytes rest reads
    cases answer
    rw [reads]
    exact ⟨.inr (by simp [polled]), fun held member => List.mem_cons_of_mem _ member⟩
  · rename_i error rest reads
    cases answer
    rw [reads]
    exact ⟨.inl rfl, fun held member => List.mem_cons_of_mem _ member⟩
  · cases answer
    refine ⟨.inl ?_, fun _ => id⟩
    split <;> rfl

theorem WsStream.Bounded.turn (bounded : s.Bounded) (turn : Turn cx s t) : t.Bounded := by
  cases turn with
  | decoded empty did =>
    have decoded := bounded.decode empty
    rwa [did] at decoded
  | drain => exact bounded.drain cx
  | read byte bytes empty waits opened answer =>
    obtain ⟨brought, left⟩ := socket_reads answer
    have short : s.incoming.length ≤ maxFrame + 13 := by
      obtain ⟨found, -⟩ | ⟨error, -, done⟩ | ⟨opcode, payload, rest, -, done⟩ := decode_cases s
      · exact scan_partly found
      · simp [done] at waits
      · simp [waits] at done
    have little := bounded.reads _ (brought.resolve_left (by simp [polled]))
    refine ⟨?_, bounded.plain, bounded.outgoing, fun bytes member => bounded.reads bytes (left _ member)⟩
    rw [List.length_append]
    simp only [polled] at little
    omega

theorem WsStream.Bounded.turns (bounded : s.Bounded) (turns : Relation.ReflTransGen (Turn cx) s t) :
    t.Bounded := by
  induction turns with
  | refl => exact bounded
  | tail _ turn ih => exact ih.turn turn

theorem WsStream.Bounded.pollRead (bounded : s.Bounded) (cx : Half) (room : Nat) :
    (s.pollRead cx room).1.Bounded := by
  obtain ⟨mid, turns, returns⟩ := pollRead_turns cx room s
  have held := bounded.turns turns
  generalize s.pollRead cx room = result at returns
  cases returns with
  | bytes =>
    refine ⟨held.incoming, ?_, held.outgoing, held.reads⟩
    have plain := held.plain
    simp only [List.length_drop]
    omega
  | refused empty did =>
    have decoded := held.decode empty
    rwa [did] at decoded
  | closed => exact held
  | socket _ _ _ answer =>
    have left := (socket_reads answer).2
    exact ⟨held.incoming, held.plain, held.outgoing, fun bytes member => held.reads bytes (left _ member)⟩

/-- Data is staged on an empty buffer. -/
theorem WsStream.Bounded.pollWrite (bounded : s.Bounded) (cx : Half) (data : Bytes) :
    (s.pollWrite cx data).1.Bounded := by
  have drained := bounded.drain cx
  have emptied := (drain_spec cx s).emptied
  unfold WsStream.pollWrite
  split
  · rename_i mid did
    rw [did] at drained emptied
    have staged : (mid.frame opBinary (data.take (min data.length maxSend))).Bounded := by
      refine ⟨drained.incoming, drained.plain, ?_, drained.reads⟩
      have length := (frameBytes_length opBinary (data.take (min data.length maxSend))).1
      have empty : mid.outgoing = [] := emptied rfl
      simp only [WsStream.frame, empty, List.nil_append, List.length_take] at length ⊢
      split <;> omega
    have pushed := staged.drain cx
    dsimp only
    split <;> rename_i did' <;> rwa [did'] at pushed
  · rename_i mid error did
    rwa [did] at drained
  · rename_i mid did
    rwa [did] at drained

/-- How the socket takes a flush or a shutdown moves no buffered byte. -/
theorem WsStream.Bounded.pollFlush (bounded : s.Bounded) (cx : Half) (settle : Settle) :
    (s.pollFlush cx settle).1.Bounded := by
  have drained := bounded.drain cx
  unfold WsStream.pollFlush
  split
  · rename_i mid did
    rw [did] at drained
    refine ⟨drained.incoming, drained.plain, drained.outgoing, ?_⟩
    have same : (mid.inner.pollSettle cx settle).1.reads = mid.inner.reads := by
      unfold Socket.pollSettle
      split
      · rfl
      · rfl
      · split <;> rfl
    dsimp only
    rw [same]
    exact drained.reads
  · exact drained

theorem WsStream.Bounded.pollShutdown (bounded : s.Bounded) (cx : Half) (settle : Settle) :
    (s.pollShutdown cx settle).1.Bounded := by
  have staged : (if s.closed then s else { s.frame opClose [] with closed := true }).Bounded := by
    split
    · exact bounded
    · rename_i opened
      refine ⟨bounded.incoming, bounded.plain, ?_, bounded.reads⟩
      have outgoing := bounded.outgoing
      have length := (frameBytes_length opClose []).2 (by simp)
      rw [if_neg opened] at outgoing
      simp only [WsStream.frame, List.length_append, length, List.length_nil, if_true]
      omega
  exact staged.pollFlush cx settle

inductive BufferAct
  /-- The socket will answer a read with this. -/
  | arrive (answer : ReadAnswer)
  | hangUp
  /-- The socket becomes writable and will give these answers. -/
  | writable (answers : List WriteAnswer)
  | pollRead (cx : Half) (room : Nat)
  | pollWrite (cx : Half) (data : Bytes)
  | pollFlush (cx : Half) (settle : Settle)
  | pollShutdown (cx : Half) (settle : Settle)
  deriving DecidableEq, Repr

/-- Every poll in any order, by whoever, on a socket that does what it likes; only,
one read returns no more than fits the scratch buffer. -/
def WsStream.step (s : WsStream) : BufferAct → Option WsStream
  | .arrive (.data bytes) =>
    if bytes.length ≤ scratchLen then some (s.arrive bytes) else none
  | .arrive (.fail error) =>
    some { s with inner := { s.inner with reads := s.inner.reads ++ [.fail error] } }
  | .hangUp => some { s with inner := { s.inner with eof := true } }
  | .writable answers => some (s.becomesWritable answers)
  | .pollRead cx room => some (s.pollRead cx room).1
  | .pollWrite cx data => some (s.pollWrite cx data).1
  | .pollFlush cx settle => some (s.pollFlush cx settle).1
  | .pollShutdown cx settle => some (s.pollShutdown cx settle).1

theorem WsStream.Bounded.step {act : BufferAct} (bounded : s.Bounded) (stepped : s.step act = some t) :
    t.Bounded := by
  cases act with
  | arrive answer =>
    cases answer with
    | data bytes =>
      obtain ⟨short, same⟩ := Option.ite_none_right_eq_some.mp stepped
      cases same
      refine ⟨bounded.incoming, bounded.plain, bounded.outgoing, fun held member => ?_⟩
      rcases List.mem_append.mp member with old | new
      · exact bounded.reads held old
      · cases List.mem_singleton.mp new
        exact short
    | fail error =>
      cases stepped
      refine ⟨bounded.incoming, bounded.plain, bounded.outgoing, fun held member => ?_⟩
      rcases List.mem_append.mp member with old | new
      · exact bounded.reads held old
      · cases List.mem_singleton.mp new
  | hangUp =>
    cases stepped
    exact ⟨bounded.incoming, bounded.plain, bounded.outgoing, bounded.reads⟩
  | writable answers =>
    cases stepped
    exact ⟨bounded.incoming, bounded.plain, bounded.outgoing, bounded.reads⟩
  | pollRead cx room =>
    cases stepped
    exact bounded.pollRead cx room
  | pollWrite cx data =>
    cases stepped
    exact bounded.pollWrite cx data
  | pollFlush cx settle =>
    cases stepped
    exact bounded.pollFlush cx settle
  | pollShutdown cx settle =>
    cases stepped
    exact bounded.pollShutdown cx settle

/-- Whatever a client sends, however the socket cuts it and whatever is polled when,
the three buffers stay within their bounds, also between two pieces of `poll_read`'s
loop. -/
theorem buffers_stay_bounded {actions : List BufferAct}
    (ran : run WsStream.step {} actions = some final) :
    final.Within ∧ ∀ cx mid, Relation.ReflTransGen (Turn cx) final mid → mid.Within := by
  have start : ({} : WsStream).Bounded := ⟨by simp, by simp, by simp, nofun⟩
  have bounded : final.Bounded := run_preserves WsStream.Bounded
    (fun _ _ _ bounded stepped => bounded.step stepped) start ran
  exact ⟨bounded.within, fun cx mid turns => (bounded.turns turns).within⟩

/-- A client that pings and never reads, and a server that closes on top. -/
def neverReads : List BufferAct :=
  [.arrive (.data [0x89, 0x81, 0, 0, 0, 0, 7, 0x89, 0x80, 0, 0]), .pollRead .reader 8,
    .pollShutdown .writer .done, .pollWrite .writer [1], .pollRead .reader 8]

theorem buffers_stay_bounded_unread : ∃ final, run WsStream.step {} neverReads = some final ∧
    final.outgoing = [0x8a, 1, 7, 0x88, 0] ∧ final.incoming = [0x89, 0x80, 0, 0] ∧ final.Within := by
  have runs : ((run WsStream.step {} neverReads).any fun final =>
      final.outgoing = [0x8a, 1, 7, 0x88, 0] ∧ final.incoming = [0x89, 0x80, 0, 0]) = true := by
    decide +kernel
  obtain ⟨final, ran, facts⟩ := run_reaches runs
  exact ⟨final, ran, facts.1, facts.2, (buffers_stay_bounded ran).1⟩

end DshProxy.Ws

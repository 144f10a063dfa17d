import DshProxy.WsReassembly

/-! One `WsStream` split between a reading and a writing task. Both halves push
at the same socket, and the socket wakes only whoever was refused last: a read
that decodes a frame pushes staged bytes under the reader's context, so it can
take the write waker away from a writer that is waiting for it. -/
namespace DshProxy.Ws
open Transitions

/-- A split stream. `parked` says that the writer's last poll returned
`Pending` and the socket has not become writable since. -/
structure Split where
  stream : WsStream := {}
  parked : Bool := false
  deriving DecidableEq, Repr

inductive SplitAct
  | arrive (bytes : Bytes)
  | hangUp
  | writable (answer : WriteAnswer) (answers : List WriteAnswer)
  | pollRead (room : Nat)
  | pollWrite (data : Bytes)
  | pollFlush (settle : Settle)
  | pollShutdown (settle : Settle)
  deriving DecidableEq, Repr

/-- Whoever sits in the waker slot is woken when the socket becomes writable;
the slot is empty afterwards. -/
def WsStream.becomesWritable (answers : List WriteAnswer) (s : WsStream) : WsStream :=
  { s with inner := { s.inner with writes := s.inner.writes ++ answers, waker := none } }

def WsStream.arrive (bytes : Bytes) (s : WsStream) : WsStream :=
  { s with inner := { s.inner with reads := s.inner.reads ++ [.data bytes] } }

def Split.step (c : Split) : SplitAct → Option Split
  | .arrive bytes =>
    if bytes ≠ [] ∧ bytes.length ≤ scratchLen ∧ c.stream.inner.eof = false then
      some { c with stream := c.stream.arrive bytes }
    else none
  | .hangUp =>
    some { c with stream := { c.stream with inner := { c.stream.inner with eof := true } } }
  | .writable answer answers =>
    some { stream := c.stream.becomesWritable (answer :: answers), parked := false }
  | .pollRead room => some { c with stream := (c.stream.pollRead .reader room).1 }
  | .pollWrite data =>
    let (stream, result) := c.stream.pollWrite .writer data
    some { stream, parked := result = .pending }
  | .pollFlush settle =>
    let (stream, result) := c.stream.pollFlush .writer settle
    some { stream, parked := result = .pending }
  | .pollShutdown settle =>
    let (stream, result) := c.stream.pollShutdown .writer settle
    some { stream, parked := result = .pending }

/-- A waiting writer is the one the socket will wake. -/
def Split.Woken (c : Split) : Prop := c.parked = true → c.stream.inner.waker = some .writer

/-- The front of a list of frames up to the first that carries stream bytes:
what one `poll_read` decodes before it has something to return. -/
def throughData : List ClientFrame → List ClientFrame
  | [] => []
  | f :: fs => if dataOf [f] = [] then f :: throughData fs else [f]

/-- The frames the next `poll_read` will decode. -/
def WsStream.ahead (s : WsStream) : List ClientFrame :=
  if s.plain = [] then throughData (frames s.undecoded).1 else []

/-- The next `poll_read` has nothing to push: it decodes no frame, or nothing is
staged and it decodes no ping. -/
def WsStream.ReadsAside (s : WsStream) : Prop :=
  ∀ f ∈ s.ahead, s.outgoing = [] ∧ f.opcode ≠ opPing

instance (s : WsStream) : Decidable s.ReadsAside :=
  inferInstanceAs (Decidable (∀ f ∈ s.ahead, s.outgoing = [] ∧ f.opcode ≠ opPing))

/-- While the writer waits, reads push nothing. -/
def Split.Permits (c : Split) : SplitAct → Prop
  | .pollRead _ => c.parked = true → c.stream.ReadsAside
  | _ => True

instance (c : Split) (act : SplitAct) : Decidable (c.Permits act) :=
  match act with
  | .pollRead _ => inferInstanceAs (Decidable (c.parked = true → c.stream.ReadsAside))
  | .arrive _ | .hangUp | .writable _ _ | .pollWrite _ | .pollFlush _ | .pollShutdown _ =>
    isTrue trivial

private theorem ahead_decode (cx : Half) {s t : WsStream} (decoded : s.decode = (t, .ok true))
    (empty : s.plain = []) : ∃ f, s.ahead = f :: (t.drain cx).1.ahead ∧
      (f.opcode ≠ opPing → t.outgoing = s.outgoing) := by
  obtain ⟨f, consumed, plain, -, outgoing⟩ := decode_consumes decoded
  have pushed := drain_spec cx t
  have same : (t.drain cx).1.ahead = t.ahead := by
    simp [WsStream.ahead, WsStream.undecoded, pushed.plain, pushed.incoming, pushed.reads]
  have all := congrArg Prod.fst (consumed.frames [])
  simp only [List.append_nil, List.singleton_append] at all
  refine ⟨f, ?_, fun other => by simp [outgoing, other]⟩
  rw [same, WsStream.ahead, WsStream.ahead, if_pos empty, all, plain, empty, List.nil_append,
    throughData]
  split <;> simp_all

/-- A read that has nothing to push leaves the waker slot alone. -/
theorem pollRead_aside (cx : Half) (room : Nat) (s : WsStream) (aside : s.ReadsAside) :
    (s.pollRead cx room).1.inner.waker = s.inner.waker := by
  fun_induction WsStream.pollRead cx room s with
  | case1 s waiting => rfl
  | case2 s waiting t error decoded => rw [decode_inner decoded]
  | case3 s waiting t decoded ih =>
    have empty : s.plain = [] := by simpa using waiting
    obtain ⟨f, ahead, outgoing⟩ := ahead_decode cx decoded empty
    obtain ⟨nothing, notPing⟩ := aside f (by simp [ahead])
    have idle := (drain_spec cx t).idle (by rw [outgoing notPing, nothing])
    rw [idle.1] at ih ahead ⊢
    rw [ih ?_, decode_inner decoded]
    intro g member
    have known := aside g (by simp [ahead, member])
    exact ⟨by rw [outgoing notPing, nothing], known.2⟩
  | case4 s waiting t decoded closed => rw [(decode_waits decoded).1]
  | case5 s waiting t decoded opened inner answer =>
    obtain ⟨rest, rfl⟩ := pollRead_reads answer
    rw [(decode_waits decoded).1]
  | case6 s waiting t decoded opened inner byte bytes answer ih =>
    obtain ⟨rfl, -⟩ := decode_waits decoded
    obtain ⟨rest, reads, rfl⟩ := pollRead_backlog answer
    refine ih ?_
    have same : WsStream.ahead { t with
        inner := { t.inner with reads := rest }, incoming := t.incoming ++ byte :: bytes } = t.ahead := by
      simp [WsStream.ahead, WsStream.undecoded, arrivals, reads]
    intro f member
    rw [same] at member
    exact aside f member
  | case7 s waiting t decoded opened inner error answer =>
    obtain ⟨rest, rfl⟩ := pollRead_reads answer
    rw [(decode_waits decoded).1]
  | case8 s waiting t decoded opened inner answer =>
    obtain ⟨rest, rfl⟩ := pollRead_reads answer
    rw [(decode_waits decoded).1]

/-- A writer's poll that is refused leaves the writer's waker in the slot. -/
theorem pollWrite_parks (cx : Half) (data : Bytes) (s : WsStream)
    (refused : (s.pollWrite cx data).2 = .pending) :
    (s.pollWrite cx data).1.inner.waker = some cx := by
  have pushed := drain_spec cx s
  unfold WsStream.pollWrite at refused ⊢
  split at refused
  · dsimp only at refused
    split at refused <;> cases refused
  · cases refused
  · rename_i mid drained
    rw [drained] at pushed
    simpa using pushed.waker

private theorem settle_parks {socket : Socket} (refused : (socket.pollSettle cx settle).2 = .pending) :
    (socket.pollSettle cx settle).1.waker = some cx := by
  unfold Socket.pollSettle at refused ⊢
  split <;> simp_all
  split <;> simp_all

theorem pollFlush_parks (cx : Half) (settle : Settle) (s : WsStream)
    (refused : (s.pollFlush cx settle).2 = .pending) :
    (s.pollFlush cx settle).1.inner.waker = some cx := by
  have pushed := drain_spec cx s
  unfold WsStream.pollFlush at refused ⊢
  split
  · rename_i mid drained
    simp only [drained] at refused
    exact settle_parks refused
  · have waker := pushed.waker
    simp_all

theorem pollShutdown_parks (cx : Half) (settle : Settle) (s : WsStream)
    (refused : (s.pollShutdown cx settle).2 = .pending) :
    (s.pollShutdown cx settle).1.inner.waker = some cx := by
  -- The Close frame is staged first; from there a shutdown is a flush.
  exact pollFlush_parks cx settle (if s.closed then s else { s.frame opClose [] with closed := true })
    refused

/-- No write wake-up is lost while reads push nothing at the socket a writer is
waiting for: in every state such a run reaches, a waiting writer is the one the
socket will wake. -/
theorem waiting_writer_is_woken (ran : run Split.step {} actions = some final)
    (permitted : Meets Split.step Split.Permits {} actions) : final.Woken := by
  refine run_preserves_where Split.Woken ?_ (by simp [Split.Woken]) permitted ran
  intro c act next woken permit stepped
  cases act with
  | arrive bytes =>
    simp only [Split.step] at stepped
    split at stepped <;> cases stepped
    exact woken
  | hangUp =>
    cases stepped
    exact woken
  | writable answer answers =>
    cases stepped
    intro parked
    cases parked
  | pollRead room =>
    cases stepped
    intro parked
    rw [pollRead_aside .reader room c.stream (permit parked)]
    exact woken parked
  | pollWrite data =>
    cases stepped
    exact fun parked => pollWrite_parks .writer data c.stream (of_decide_eq_true parked)
  | pollFlush settle =>
    cases stepped
    exact fun parked => pollFlush_parks .writer settle c.stream (of_decide_eq_true parked)
  | pollShutdown settle =>
    cases stepped
    exact fun parked => pollShutdown_parks .writer settle c.stream (of_decide_eq_true parked)

/-- A writer with one frame staged is refused the next one; then a one-byte
client frame comes in and is read. -/
def stolenWaker : List SplitAct :=
  [.pollWrite [1], .pollWrite [2], .arrive [0x82, 0x81, 0, 0, 0, 0, 5], .pollRead 8]

/-- The read pushes the staged frame under the reader's context, so the socket
forgets the writer, which still waits. -/
theorem waiting_writer_is_forgotten : ∃ final, run Split.step {} stolenWaker = some final ∧
    final.parked = true ∧ final.stream.inner.waker = some .reader ∧ ¬ final.Woken := by
  have runs : ((run Split.step {} stolenWaker).map fun c => (c.parked, c.stream.inner.waker)) =
      some (true, some .reader) := by decide +kernel
  obtain ⟨final, ran, facts⟩ := Option.map_eq_some_iff.mp runs
  obtain ⟨parked, waker⟩ := Prod.mk.inj facts
  exact ⟨final, ran, parked, waker, fun woken => by simpa [waker] using woken parked⟩

/-- The same exchange with the read before the writer has to wait. -/
def keptWaker : List SplitAct :=
  [.arrive [0x82, 0x81, 0, 0, 0, 0, 5], .pollRead 8, .pollWrite [1], .pollWrite [2], .pollRead 8]

theorem waiting_writer_is_woken_kept : ∃ final, run Split.step {} keptWaker = some final ∧
    Meets Split.step Split.Permits {} keptWaker ∧ final.parked = true ∧ final.Woken := by
  have runs : (run Split.step {} keptWaker).map Split.parked = some true := by decide +kernel
  have permitted : Meets Split.step Split.Permits {} keptWaker := by decide +kernel
  obtain ⟨final, ran, parked⟩ := Option.map_eq_some_iff.mp runs
  exact ⟨final, ran, permitted, parked, waiting_writer_is_woken ran permitted⟩

end DshProxy.Ws

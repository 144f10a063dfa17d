import DshProxy.Wire
import DshProxy.WsSplit

/-! The downlink loop of `serve_client` over a `WsStream`. `poll_write` reports
a frame as written once it is staged, and the loop never flushes: a tail the
socket did not take at once stays in `outgoing` while the loop waits for the
next chunk. -/
namespace DshProxy.Ws
open Transitions Wire

/-- Where the loop stands: in `rx.recv()`, in `write_all` with some of the chunk
left, in `tx.grant`, or past the loop. `size` is the chunk's whole length. -/
inductive Stage
  | recv
  | writing (rest : Bytes) (size : Nat)
  | granting
  | ended
  deriving DecidableEq, Repr

/-- The loop and the stream it writes to. `dataEnd` counts the bytes ever staged
up to the end of the last data frame; those of them the socket does not have
are data-frame bytes in `outgoing`. -/
structure Downlink where
  stream : WsStream := {}
  stage : Stage := .recv
  pending : Nat := 0
  dataEnd : Nat := 0
  deriving DecidableEq, Repr

/-- After `write_all`: count the chunk, and grant once half a window is owed. -/
def Downlink.finish (d : Downlink) (size : Nat) : Downlink :=
  let pending := (d.pending + size) % 2 ^ 32
  { d with pending, stage := if grantThreshold ≤ pending then .granting else .recv }

inductive DownlinkAct
  /-- `rx.recv()` returns the next chunk, or `None`. -/
  | chunk (bytes : Bytes)
  | finished
  /-- `write_all` and, past the loop, `shutdown` poll the stream. -/
  | pollWrite
  | pollShutdown (settle : Settle)
  /-- `tx.grant` returns. -/
  | granted (ok : Bool)
  /-- The other half reads, and the socket does what it does. -/
  | pollRead (room : Nat)
  | arrive (bytes : Bytes)
  | hangUp
  | writable (answer : WriteAnswer) (answers : List WriteAnswer)
  deriving DecidableEq, Repr

def Downlink.step (d : Downlink) : DownlinkAct → Option Downlink
  | .chunk bytes =>
    if d.stage = .recv then
      -- `write_all` of an empty chunk does not poll at all.
      if bytes = [] then some (d.finish 0) else some { d with stage := .writing bytes bytes.length }
    else none
  | .finished => if d.stage = .recv then some { d with stage := .ended } else none
  | .pollWrite =>
    match d.stage with
    | .writing rest size =>
      match d.stream.pollWrite .writer rest with
      | (stream, .ready (.ok count)) =>
        let d := { d with stream, dataEnd := stream.inner.sent.length + stream.outgoing.length }
        if count = 0 then some { d with stage := .ended }
        else if rest.drop count = [] then some (d.finish size)
        else some { d with stage := .writing (rest.drop count) size }
      | (stream, .ready (.error _)) => some { d with stream, stage := .ended }
      | (stream, .pending) => some { d with stream }
    | _ => none
  | .pollShutdown settle =>
    if d.stage = .ended then some { d with stream := (d.stream.pollShutdown .writer settle).1 }
    else none
  | .granted ok =>
    if d.stage = .granting then
      some (if ok then { d with pending := 0, stage := .recv } else { d with stage := .ended })
    else none
  | .pollRead room => some { d with stream := (d.stream.pollRead .reader room).1 }
  | .arrive bytes =>
    if bytes ≠ [] ∧ bytes.length ≤ scratchLen ∧ d.stream.inner.eof = false then
      some { d with stream := d.stream.arrive bytes }
    else none
  | .hangUp =>
    some { d with stream := { d.stream with inner := { d.stream.inner with eof := true } } }
  | .writable answer answers =>
    some { d with stream := d.stream.becomesWritable (answer :: answers) }

/-- No data-frame byte is left in `outgoing`. -/
def Downlink.Flushed (d : Downlink) : Prop := d.dataEnd ≤ d.stream.inner.sent.length

/-- A loop that waits for the next chunk has handed over all it was given. -/
def Downlink.NoneStranded (d : Downlink) : Prop := d.stage = .recv → d.Flushed

/-- If the next poll stages the frame that finishes a chunk, the socket has room
for what is staged and for that frame. -/
def Downlink.hasRoom (d : Downlink) : Bool :=
  match d.stage with
  | .writing rest _ => decide (rest.length ≤ maxSend →
      d.stream.outgoing.length + (frameBytes opBinary rest).length ≤ willing d.stream.inner.writes)
  | _ => true

/-- The loop polls its writes only on a socket with room. -/
def Downlink.Permits (d : Downlink) (act : DownlinkAct) : Prop :=
  act = .pollWrite → d.hasRoom = true

instance (d : Downlink) (act : DownlinkAct) : Decidable (d.Permits act) :=
  inferInstanceAs (Decidable (act = .pollWrite → d.hasRoom = true))

theorem pollRead_sent (cx : Half) (room : Nat) (s : WsStream) :
    s.inner.sent.length ≤ (s.pollRead cx room).1.inner.sent.length := by
  fun_induction WsStream.pollRead cx room s with
  | case1 s waiting => exact Nat.le_refl _
  | case2 s waiting t error decoded => rw [decode_inner decoded]
  | case3 s waiting t decoded ih =>
    rw [← decode_inner decoded]
    exact (drain_spec cx t).grown.length_le.trans ih
  | case4 s waiting t decoded closed => rw [decode_inner decoded]
  | case5 s waiting t decoded opened inner answer =>
    obtain ⟨rest, rfl⟩ := pollRead_reads answer
    rw [(decode_waits decoded).1]
  | case6 s waiting t decoded opened inner byte bytes answer ih =>
    obtain ⟨rest, rfl⟩ := pollRead_reads answer
    rw [← (decode_waits decoded).1]
    exact ih
  | case7 s waiting t decoded opened inner error answer =>
    obtain ⟨rest, rfl⟩ := pollRead_reads answer
    rw [(decode_waits decoded).1]
  | case8 s waiting t decoded opened inner answer =>
    obtain ⟨rest, rfl⟩ := pollRead_reads answer
    rw [(decode_waits decoded).1]

/-- A frame staged on a socket with room for it, and for what is staged before
it, goes out whole. -/
theorem pollWrite_empties (cx : Half) (data : Bytes) (s : WsStream) (short : data.length ≤ maxSend)
    (fits : s.outgoing.length + (frameBytes opBinary data).length ≤ willing s.inner.writes) :
    (s.pollWrite cx data).1.outgoing = [] ∧ (s.pollWrite cx data).2 = .ready (.ok data.length) := by
  have first := drain_spec cx s
  obtain ⟨drained, left⟩ := first.roomy (by omega)
  have nothing := first.emptied drained
  have whole : data.take (min data.length maxSend) = data := by
    rw [Nat.min_eq_left short, List.take_length]
  have second := drain_spec cx ((s.drain cx).1.frame opBinary data)
  obtain ⟨pushed, -⟩ := second.roomy (by
    simp only [WsStream.frame, nothing, List.nil_append]
    omega)
  have emptied := second.emptied pushed
  have split : s.drain cx = ((s.drain cx).1, .ready (.ok ())) := by rw [← drained]
  unfold WsStream.pollWrite
  rw [split]
  dsimp only
  rw [whole]
  generalize ((s.drain cx).1.frame opBinary data).drain cx = pair at pushed emptied ⊢
  obtain ⟨t, result⟩ := pair
  subst pushed
  exact ⟨emptied, by rw [Nat.min_eq_left short]⟩

theorem pollWrite_count {s t : WsStream} (wrote : s.pollWrite cx data = (t, .ready (.ok count))) :
    count = min data.length maxSend := by
  unfold WsStream.pollWrite at wrote
  split at wrote
  · dsimp only at wrote
    split at wrote <;> cases wrote
    rfl
  · cases wrote
  · cases wrote

/-- Nothing is stranded while the socket always has room for the frame that
finishes a chunk: in every state such a run reaches, a loop waiting for the next
chunk has handed every data byte to the socket. -/
theorem no_data_stranded (ran : run Downlink.step {} actions = some final)
    (permitted : Meets Downlink.step Downlink.Permits {} actions) : final.NoneStranded := by
  -- A grant stands between the last write and the next chunk, so the invariant
  -- also covers the loop while it grants.
  have settled := run_preserves_where
    (fun d : Downlink => d.stage = .recv ∨ d.stage = .granting → d.Flushed) ?_
    (by simp [Downlink.Flushed]) permitted ran
  · exact fun waiting => settled (.inl waiting)
  intro d act next flushed permit stepped
  cases act with
  | chunk bytes =>
    simp only [Downlink.step] at stepped
    split_ifs at stepped with waiting empty <;> cases stepped
    · exact fun _ => flushed (.inl waiting)
    · simp
  | finished =>
    simp only [Downlink.step] at stepped
    split_ifs at stepped
    cases stepped
    simp
  | pollWrite =>
    simp only [Downlink.step] at stepped
    cases stage : d.stage with
    | recv => simp [stage] at stepped
    | granting => simp [stage] at stepped
    | ended => simp [stage] at stepped
    | writing rest size =>
      simp only [stage] at stepped
      by_cases last : rest.length ≤ maxSend
      · have fits := permit rfl
        simp only [Downlink.hasRoom, stage, decide_eq_true_eq] at fits
        obtain ⟨emptied, wrote⟩ := pollWrite_empties .writer rest d.stream last (fits last)
        generalize d.stream.pollWrite .writer rest = pair at stepped emptied wrote
        obtain ⟨stream, result⟩ := pair
        subst wrote
        dsimp only at stepped emptied
        split_ifs at stepped <;> cases stepped <;> intro _ <;>
          simp [Downlink.Flushed, Downlink.finish, emptied]
      · split at stepped
        · rename_i stream count wrote
          have taken := pollWrite_count wrote
          have left : rest.drop count ≠ [] := by
            simp only [ne_eq, List.drop_eq_nil_iff, not_le]
            omega
          split_ifs at stepped <;> cases stepped <;> simp
        · cases stepped
          simp
        · cases stepped
          simp
  | pollShutdown settle =>
    simp only [Downlink.step] at stepped
    split_ifs at stepped with ended
    cases stepped
    simp [ended]
  | granted ok =>
    simp only [Downlink.step] at stepped
    split_ifs at stepped with granting <;> cases stepped
    · exact fun _ => flushed (.inr granting)
    · simp
  | pollRead room =>
    cases stepped
    exact fun waiting => (flushed waiting).trans (pollRead_sent .reader room d.stream)
  | arrive bytes =>
    simp only [Downlink.step] at stepped
    split_ifs at stepped
    cases stepped
    exact flushed
  | hangUp =>
    cases stepped
    exact flushed
  | writable answer answers =>
    cases stepped
    exact flushed

/-- One chunk of two bytes, and a socket that takes three of the frame's four. -/
def strandedTail : List DownlinkAct := [.chunk [7, 8], .writable (.accept 3) [], .pollWrite]

/-- The loop is back in `rx.recv()` with the last byte of the chunk still staged. -/
theorem data_stranded : ∃ final, run Downlink.step {} strandedTail = some final ∧
    final.stage = .recv ∧ final.stream.outgoing = [8] ∧ ¬ final.NoneStranded := by
  have runs : ((run Downlink.step {} strandedTail).map fun d =>
      (d.stage, d.stream.outgoing, d.dataEnd, d.stream.inner.sent.length)) =
      some (.recv, [8], 4, 3) := by decide +kernel
  obtain ⟨final, ran, facts⟩ := Option.map_eq_some_iff.mp runs
  simp only [Prod.mk.injEq] at facts
  obtain ⟨stage, outgoing, dataEnd, sent⟩ := facts
  refine ⟨final, ran, stage, outgoing, fun none => ?_⟩
  have flushed := none stage
  simp [Downlink.Flushed, dataEnd, sent] at flushed

/-- The same chunk on a socket with room for the whole frame. -/
def deliveredChunk : List DownlinkAct := [.chunk [7, 8], .writable (.accept 4) [], .pollWrite]

theorem no_data_stranded_delivered : ∃ final, run Downlink.step {} deliveredChunk = some final ∧
    Meets Downlink.step Downlink.Permits {} deliveredChunk ∧ final.stage = .recv ∧
    final.NoneStranded := by
  have runs : (run Downlink.step {} deliveredChunk).map Downlink.stage = some .recv := by
    decide +kernel
  have permitted : Meets Downlink.step Downlink.Permits {} deliveredChunk := by decide +kernel
  obtain ⟨final, ran, stage⟩ := Option.map_eq_some_iff.mp runs
  exact ⟨final, ran, permitted, stage, no_data_stranded ran permitted⟩

end DshProxy.Ws

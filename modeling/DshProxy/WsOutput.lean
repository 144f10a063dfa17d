import DshProxy.WsReassembly
import DshProxy.WsSplit

/-! What the client of a `WsStream` sees. Reader and writer stage their frames in
one buffer that the socket takes in pieces of any size; what has been handed over
and what is still staged is, taken together, always a sequence of whole frames. -/
namespace DshProxy.Ws
open Transitions ByteOrder

/-- One frame of the server as its client reads it. -/
structure ServerFrame where
  opcode : UInt8
  payload : Bytes
  deriving DecidableEq, Repr

/-- The payload length behind the second header byte, in its shortest form. -/
def serverLength (short : Nat) (bytes : Bytes) : Option (Nat × Bytes) :=
  if short = 126 then
    if bytes.length < 2 ∨ ofBe (bytes.take 2) < 126 then none
    else some (ofBe (bytes.take 2), bytes.drop 2)
  else if short = 127 then
    if bytes.length < 8 ∨ ofBe (bytes.take 8) < 65536 ∨ 2 ^ 63 ≤ ofBe (bytes.take 8) then none
    else some (ofBe (bytes.take 8), bytes.drop 8)
  else some (short, bytes)

/-- RFC 6455 for one server frame: final, no reserved bit, an opcode that is
defined, not masked, the shortest length, and a control frame of at most 125
bytes. -/
def serverFrame : Bytes → Option (ServerFrame × Bytes)
  | first :: second :: rest =>
    if first &&& 0xf0 = 0x80 ∧ known (first &&& 0x0f) = true ∧ second &&& 0x80 = 0 then
      match serverLength second.toNat rest with
      | none => none
      | some (length, body) =>
        if first &&& 0x08 ≠ 0 ∧ maxControl < length then none
        else if body.length < length then none
        else some (⟨first &&& 0x0f, body.take length⟩, body.drop length)
    else none
  | _ => none

/-- A byte sequence that is frames and nothing else. -/
def serverFrames : Nat → Bytes → Option (List ServerFrame)
  | _, [] => some []
  | 0, _ :: _ => none
  | fuel + 1, bytes => (serverFrame bytes).bind fun (f, rest) => (serverFrames fuel rest).map (f :: ·)

/-- The client's reading of a whole output. -/
def readOutput (bytes : Bytes) : Option (List ServerFrame) := serverFrames bytes.length bytes

/-- The payload bytes of the binary frames. -/
def binaryOf (fs : List ServerFrame) : Bytes :=
  ((fs.filter fun f => f.opcode = opBinary).map ServerFrame.payload).flatten

/-- The payloads of the pongs. -/
def pongsOf (fs : List ServerFrame) : List Bytes :=
  (fs.filter fun f => f.opcode = opPong).map ServerFrame.payload

/-- A Close is the last Close, and no data follows it. -/
def ClosesOnce (fs : List ServerFrame) : Prop :=
  fs.Pairwise fun before after =>
    before.opcode = opClose → after.opcode ≠ opClose ∧ after.opcode ≠ opBinary

/-- A ping that was decoded, and how much was staged when it was. -/
structure Ping where
  payload : Bytes
  staged : Nat
  deriving DecidableEq, Repr

/-- The pings that get a pong. -/
def answered (pings : List Ping) : List Bytes :=
  (pings.filter fun ping => ping.staged ≤ maxPongBacklog).map Ping.payload

/-- The ping at the front of what is buffered, if it is one. -/
def WsStream.pingAhead (s : WsStream) : List Ping :=
  match scan s.incoming with
  | .whole opcode payload _ => if opcode = opPing then [⟨payload, s.outgoing.length⟩] else []
  | _ => []

/-- The pings that one `poll_read` decodes: its own recursion, with a note taken
at each `decode`. -/
def WsStream.pings (cx : Half) (room : Nat) (s : WsStream) : List Ping :=
  if s.plain ≠ [] then []
  else
    match _decoded : s.decode with
    | (_, .error _) => []
    | (t, .ok true) => s.pingAhead ++ WsStream.pings cx room (t.drain cx).1
    | (t, .ok false) =>
      if t.closed then []
      else
        match _answer : t.inner.pollRead with
        | (inner, .ready (.ok (byte :: bytes))) =>
          WsStream.pings cx room { t with inner, incoming := t.incoming ++ byte :: bytes }
        | _ => []
termination_by s.backlog
decreasing_by
  · have kept := drain_spec cx t
    have smaller := decode_backlog _decoded
    simpa only [WsStream.backlog, kept.incoming, kept.reads] using smaller
  · obtain ⟨rfl, -⟩ := decode_waits _decoded
    obtain ⟨rest, reads, rfl⟩ := pollRead_backlog _answer
    simp [WsStream.backlog, reads]
    omega

/-- One connection: its stream, every byte `poll_write` has reported, every ping
that was decoded, whether a `poll_write` has failed, and whether `poll_shutdown`
has been called. -/
structure Output where
  stream : WsStream := {}
  accepted : Bytes := []
  pings : List Ping := []
  broken : Bool := false
  shut : Bool := false
  deriving DecidableEq, Repr

inductive OutputAct
  /-- The socket will answer a read with this. -/
  | arrive (answer : ReadAnswer)
  | hangUp
  /-- The socket becomes writable and will give these answers. -/
  | writable (answers : List WriteAnswer)
  | pollRead (room : Nat)
  | pollWrite (data : Bytes)
  | pollFlush (settle : Settle)
  | pollShutdown (settle : Settle)
  deriving DecidableEq, Repr

/-- Every poll in any order, on a socket that does what it likes; only, nothing
is written after `poll_shutdown`. -/
def Output.step (o : Output) : OutputAct → Option Output
  | .arrive answer =>
    some { o with stream := { o.stream with
      inner := { o.stream.inner with reads := o.stream.inner.reads ++ [answer] } } }
  | .hangUp =>
    some { o with stream := { o.stream with inner := { o.stream.inner with eof := true } } }
  | .writable answers => some { o with stream := o.stream.becomesWritable answers }
  | .pollRead room =>
    some { o with
      stream := (o.stream.pollRead .reader room).1
      pings := o.pings ++ o.stream.pings .reader room }
  | .pollWrite data =>
    if o.shut then none
    else
      match o.stream.pollWrite .writer data with
      | (stream, .ready (.ok count)) => some { o with stream, accepted := o.accepted ++ data.take count }
      | (stream, .ready (.error _)) => some { o with stream, broken := true }
      | (stream, .pending) => some { o with stream }
  | .pollFlush settle => some { o with stream := (o.stream.pollFlush .writer settle).1 }
  | .pollShutdown settle =>
    some { o with stream := (o.stream.pollShutdown .writer settle).1, shut := true }

/-- The frames the server stages: data within `MAX_SEND`, and short control frames. -/
def ServerFrame.Staged (f : ServerFrame) : Prop :=
  f.opcode = opBinary ∧ f.payload.length ≤ maxSend ∨
    (f.opcode = opClose ∨ f.opcode = opPong) ∧ f.payload.length ≤ maxControl

def ServerFrame.bytes (f : ServerFrame) : Bytes := frameBytes f.opcode f.payload

variable {f : ServerFrame} {fs gs : List ServerFrame} {s t : WsStream} {o next final : Output}

private theorem staged_head (staged : f.Staged) :
    (0x80 ||| f.opcode) &&& 0xf0 = 0x80 ∧ known ((0x80 ||| f.opcode) &&& 0x0f) = true ∧
      (0x80 ||| f.opcode) &&& 0x0f = f.opcode ∧
      ((0x80 ||| f.opcode) &&& 0x08 ≠ 0 → f.payload.length ≤ maxControl) := by
  obtain ⟨code, -⟩ | ⟨code | code, short⟩ := staged
  · rw [code]
    refine ⟨by decide, by decide, by decide, fun control => absurd control (by decide)⟩
  · rw [code]
    exact ⟨by decide, by decide, by decide, fun _ => short⟩
  · rw [code]
    exact ⟨by decide, by decide, by decide, fun _ => short⟩

private theorem staged_length (staged : f.Staged) : f.payload.length ≤ maxSend := by
  obtain ⟨-, short⟩ | ⟨-, short⟩ := staged
  · exact short
  · simp only [maxControl] at short
    simp only [maxSend]
    omega

private theorem short_byte : ∀ length < 126,
    UInt8.ofNat length &&& 0x80 = 0 ∧ (UInt8.ofNat length).toNat = length := by
  decide

private theorem serverLength_wide {length : Nat} (rest : Bytes) (long : 126 ≤ length)
    (fits : length ≤ 65535) :
    serverLength (126 : UInt8).toNat (toBe 2 length ++ rest) = some (length, rest) := by
  have read : ofBe ((toBe 2 length ++ rest).take 2) = length := by
    rw [List.take_left' (toBe_length 2 _), ofBe_toBe 2 _ (by omega)]
  have enough : ¬ ((toBe 2 length ++ rest).length < 2 ∨ length < 126) := by
    rw [List.length_append, toBe_length]
    omega
  rw [serverLength, if_pos (by decide), read, if_neg enough, List.drop_left' (toBe_length 2 _)]

private theorem serverLength_huge {length : Nat} (rest : Bytes) (long : 65536 ≤ length)
    (fits : length < 2 ^ 63) :
    serverLength (127 : UInt8).toNat (toBe 8 length ++ rest) = some (length, rest) := by
  have read : ofBe ((toBe 8 length ++ rest).take 8) = length := by
    rw [List.take_left' (toBe_length 8 _), ofBe_toBe 8 _ (by omega)]
  have enough : ¬ ((toBe 8 length ++ rest).length < 8 ∨ length < 65536 ∨ 2 ^ 63 ≤ length) := by
    rw [List.length_append, toBe_length]
    omega
  rw [serverLength, if_neg (by decide), if_pos (by decide), read, if_neg enough,
    List.drop_left' (toBe_length 8 _)]

/-- A header, once its length is read back, delimits its payload. -/
private theorem serverFrame_header {second : UInt8} {field : Bytes} (staged : f.Staged)
    (rest : Bytes) (unmasked : second &&& 0x80 = 0)
    (length : serverLength second.toNat (field ++ (f.payload ++ rest)) =
      some (f.payload.length, f.payload ++ rest)) :
    serverFrame ((0x80 ||| f.opcode) :: second :: (field ++ (f.payload ++ rest))) = some (f, rest) := by
  obtain ⟨final, defined, code, control⟩ := staged_head staged
  have within : ¬ ((0x80 ||| f.opcode) &&& 0x08 ≠ 0 ∧ maxControl < f.payload.length) := fun long =>
    absurd long.2 (Nat.not_lt_of_le (control long.1))
  have whole : ¬ (f.payload ++ rest).length < f.payload.length := by
    rw [List.length_append]
    omega
  rw [serverFrame, if_pos ⟨final, defined, unmasked⟩, length]
  dsimp only
  rw [if_neg within, if_neg whole, code, List.take_left' rfl, List.drop_left' rfl]

/-- The client reads back every frame the server stages, whichever of the three
lengths it has. -/
theorem serverFrame_bytes (staged : f.Staged) (rest : Bytes) :
    serverFrame (f.bytes ++ rest) = some (f, rest) := by
  have short := staged_length staged
  simp only [maxSend] at short
  by_cases small : f.payload.length < 126
  · obtain ⟨unmasked, same⟩ := short_byte _ small
    have shape : f.bytes ++ rest = (0x80 ||| f.opcode) :: UInt8.ofNat f.payload.length ::
        ([] ++ (f.payload ++ rest)) := by
      simp [ServerFrame.bytes, frameBytes, small]
    rw [shape]
    refine serverFrame_header staged rest unmasked ?_
    rw [same, List.nil_append, serverLength, if_neg (by omega), if_neg (by omega)]
  · by_cases medium : f.payload.length ≤ 65535
    · have shape : f.bytes ++ rest = (0x80 ||| f.opcode) :: 126 ::
          (toBe 2 f.payload.length ++ (f.payload ++ rest)) := by
        simp [ServerFrame.bytes, frameBytes, small, medium]
      rw [shape]
      exact serverFrame_header staged rest (by decide)
        (serverLength_wide _ (Nat.le_of_not_lt small) medium)
    · have shape : f.bytes ++ rest = (0x80 ||| f.opcode) :: 127 ::
          (toBe 8 f.payload.length ++ (f.payload ++ rest)) := by
        simp [ServerFrame.bytes, frameBytes, small, medium]
      rw [shape]
      exact serverFrame_header staged rest (by decide) (serverLength_huge _ (by omega) (by omega))

/-- Staged frames, back to back, are read as just these frames. -/
theorem readOutput_frames (staged : ∀ f ∈ fs, f.Staged) :
    readOutput (fs.flatMap ServerFrame.bytes) = some fs := by
  have enough (fuel : Nat) (most : (fs.flatMap ServerFrame.bytes).length ≤ fuel) :
      serverFrames fuel (fs.flatMap ServerFrame.bytes) = some fs := by
    induction fs generalizing fuel with
    | nil => cases fuel <;> rfl
    | cons f fs ih =>
      have first : f.bytes = (0x80 ||| f.opcode) :: f.bytes.tail := rfl
      rw [List.flatMap_cons] at most ⊢
      rw [List.length_append] at most
      cases fuel with
      | zero =>
        rw [first, List.length_cons] at most
        omega
      | succ fuel =>
        have short : (fs.flatMap ServerFrame.bytes).length ≤ fuel := by
          rw [first, List.length_cons] at most
          omega
        have read := serverFrame_bytes (staged f (by simp)) (fs.flatMap ServerFrame.bytes)
        rw [first, List.cons_append] at read ⊢
        rw [serverFrames, read, Option.bind_some]
        · dsimp only
          rw [ih (fun f member => staged f (by simp [member])) fuel short]
          rfl
        · exact List.cons_ne_nil _ _
  exact enough _ (Nat.le_refl _)

/-- The pongs to some pings. -/
def pongFrames (pings : List Ping) : List ServerFrame :=
  (answered pings).map fun payload => ⟨opPong, payload⟩

/-- From `s` to `t` exactly these frames were staged, and some of the bytes may
have gone to the socket. -/
structure Stages (s t : WsStream) (gs : List ServerFrame) : Prop where
  bytes : t.inner.sent ++ t.outgoing = s.inner.sent ++ s.outgoing ++ gs.flatMap ServerFrame.bytes
  staged : ∀ g ∈ gs, g.Staged
  closed : s.closed = true → t.closed = true

theorem Stages.trans {u : WsStream} (first : Stages s t fs) (second : Stages t u gs) :
    Stages s u (fs ++ gs) := by
  refine ⟨?_, fun g member => ?_, fun shut => second.closed (first.closed shut)⟩
  · rw [second.bytes, first.bytes, List.flatMap_append, List.append_assoc]
  · rcases List.mem_append.mp member with old | new
    · exact first.staged g old
    · exact second.staged g new

theorem drain_stages (cx : Half) (s : WsStream) : Stages s (s.drain cx).1 [] := by
  have drained := drain_spec cx s
  refine ⟨?_, by simp, fun shut => drained.closed.trans shut⟩
  rw [drained.moved, List.flatMap_nil, List.append_nil]

/-- A control frame the decoder lets through has at most 125 bytes. -/
theorem scan_control {incoming payload rest : Bytes} {opcode : UInt8}
    (found : scan incoming = .whole opcode payload rest) (control : opcode &&& 0x08 ≠ 0) :
    payload.length ≤ maxControl := by
  unfold scan at found
  split at found
  · dsimp only at found
    split at found
    · cases found
    · rename_i first second _ fine
      split at found
      · cases found
      · rename_i length offset declared
        split_ifs at found
        cases found
        have short : (second &&& 0x7f).toNat ≤ maxControl := by
          have both : first &&& 128 ≠ 0 ∧ second.toNat &&& 127 ≤ maxControl := by
            simpa [control] using fine
          simpa using both.2
        simp only [maxControl] at short
        rw [declaredLength, if_neg (by omega), if_neg (by omega)] at declared
        cases declared
        simp only [unmask, List.length_mapIdx, List.length_take, maxControl]
        omega
  · cases found

private theorem pongFrames_nil : pongFrames [] = [] := rfl

private theorem pongFrames_append (first second : List Ping) :
    pongFrames (first ++ second) = pongFrames first ++ pongFrames second := by
  simp [pongFrames, answered]

/-- A decoded frame stages the pong it asks for, if not too much is staged. -/
theorem decode_stages (decoded : s.decode = (t, .ok true)) : Stages s t (pongFrames s.pingAhead) := by
  obtain ⟨-, done⟩ | ⟨error, -, done⟩ | ⟨opcode, payload, rest, found, done⟩ := decode_cases s
  · simp [done] at decoded
  · simp [done] at decoded
  · have quiet (other : opcode ≠ opPing) : s.pingAhead = [] := by
      simp [WsStream.pingAhead, found, other]
    obtain ⟨code, done⟩ | ⟨code, done⟩ | ⟨code, done⟩ | ⟨code, done⟩ | ⟨-, done⟩ := done
    · have other : opcode ≠ opPing := by rcases code with rfl | rfl | rfl <;> decide
      rw [done] at decoded
      cases decoded
      rw [quiet other]
      exact ⟨by simp [pongFrames_nil], by simp [pongFrames_nil], id⟩
    · rw [done] at decoded
      cases decoded
      rw [quiet (by rw [code]; decide)]
      exact ⟨by simp [pongFrames_nil], by simp [pongFrames_nil], fun _ => rfl⟩
    · rw [done] at decoded
      cases decoded
      subst code
      have short := scan_control found (by decide)
      have ahead : s.pingAhead = [⟨payload, s.outgoing.length⟩] := by
        simp [WsStream.pingAhead, found]
      by_cases room : s.outgoing.length ≤ maxPongBacklog
      · have pong : pongFrames s.pingAhead = [⟨opPong, payload⟩] := by
          simp [ahead, pongFrames, answered, room]
        rw [pong]
        refine ⟨?_, fun g member => ?_, id⟩
        · simp [room, ServerFrame.bytes]
        · rw [List.mem_singleton.mp member]
          exact .inr ⟨.inr rfl, short⟩
      · have none : pongFrames s.pingAhead = [] := by
          simp [ahead, pongFrames, answered, room]
        rw [none]
        exact ⟨by simp [room], by simp, id⟩
    · rw [done] at decoded
      cases decoded
      rw [quiet (by rw [code]; decide)]
      exact ⟨by simp [pongFrames_nil], by simp [pongFrames_nil], id⟩
    · simp [done] at decoded

theorem Stages.same (bytes : t.inner.sent ++ t.outgoing = s.inner.sent ++ s.outgoing)
    (closed : t.closed = s.closed) : Stages s t [] :=
  ⟨by rw [bytes, List.flatMap_nil, List.append_nil], by simp, fun shut => closed.trans shut⟩

/-- A decode error stages nothing. -/
theorem decode_refusal {error : IoError} (decoded : s.decode = (t, .error error)) : Stages s t [] := by
  obtain ⟨-, done⟩ | ⟨error, -, done⟩ | ⟨opcode, payload, rest, found, done⟩ := decode_cases s
  · simp [done] at decoded
  · rw [done] at decoded
    cases decoded
    exact .same rfl rfl
  · obtain ⟨-, done⟩ | ⟨-, done⟩ | ⟨-, done⟩ | ⟨-, done⟩ | ⟨-, done⟩ := done <;> rw [done] at decoded <;>
      cases decoded
    exact .same rfl rfl

section Pings
variable {cx : Half} {room : Nat} {inner : Socket}

private theorem pings_refused {error : IoError} (waiting : ¬ s.plain ≠ [])
    (decoded : s.decode = (t, .error error)) : s.pings cx room = [] := by
  rw [WsStream.pings, if_neg waiting]
  split <;> simp_all

private theorem pings_decoded (waiting : ¬ s.plain ≠ []) (decoded : s.decode = (t, .ok true)) :
    s.pings cx room = s.pingAhead ++ (t.drain cx).1.pings cx room := by
  rw [WsStream.pings, if_neg waiting]
  split <;> simp_all

private theorem pings_quiet (waiting : ¬ s.plain ≠ []) (decoded : s.decode = (t, .ok false))
    (stops : t.closed = true ∨ ∀ inner byte bytes,
      t.inner.pollRead ≠ (inner, .ready (.ok (byte :: bytes)))) : s.pings cx room = [] := by
  rw [WsStream.pings, if_neg waiting]
  split
  · simp_all
  · simp_all
  · rename_i again
    obtain rfl : t = _ := (Prod.mk.inj (decoded.symm.trans again)).1
    split
    · rfl
    · split
      · rename_i answer
        exact absurd answer (stops.resolve_left ‹_› _ _ _)
      · rfl

private theorem pings_more {byte : UInt8} {bytes : Bytes} (waiting : ¬ s.plain ≠ [])
    (decoded : s.decode = (t, .ok false)) (opened : ¬ t.closed = true)
    (answer : t.inner.pollRead = (inner, .ready (.ok (byte :: bytes)))) :
    s.pings cx room =
      ({ t with inner, incoming := t.incoming ++ byte :: bytes } : WsStream).pings cx room := by
  rw [WsStream.pings, if_neg waiting]
  split
  · simp_all
  · simp_all
  · rename_i again
    obtain rfl : t = _ := (Prod.mk.inj (decoded.symm.trans again)).1
    rw [if_neg opened]
    split
    · simp_all
    · simp_all

end Pings

/-- One `poll_read` stages the pongs to the pings it decodes. -/
theorem pollRead_stages (cx : Half) (room : Nat) (s : WsStream) :
    Stages s (s.pollRead cx room).1 (pongFrames (s.pings cx room)) := by
  fun_induction WsStream.pollRead cx room s with
  | case1 s waiting =>
    rw [WsStream.pings, if_pos waiting]
    exact .same rfl rfl
  | case2 s waiting t error decoded =>
    rw [pings_refused waiting decoded]
    exact decode_refusal decoded
  | case3 s waiting t decoded ih =>
    rw [pings_decoded waiting decoded, pongFrames_append]
    have pushed := (decode_stages decoded).trans (drain_stages cx t)
    rw [List.append_nil] at pushed
    exact pushed.trans ih
  | case4 s waiting t decoded closed =>
    rw [pings_quiet waiting decoded (.inl closed), (decode_waits decoded).1]
    exact .same rfl rfl
  | case5 s waiting t decoded opened inner answer =>
    rw [pings_quiet waiting decoded (.inr (by simp [answer]))]
    obtain ⟨rest, rfl⟩ := pollRead_reads answer
    rw [(decode_waits decoded).1]
    exact .same rfl rfl
  | case6 s waiting t decoded opened inner byte bytes answer ih =>
    rw [pings_more waiting decoded opened answer]
    obtain ⟨rest, rfl⟩ := pollRead_reads answer
    rw [(decode_waits decoded).1] at ih ⊢
    exact ⟨ih.bytes, ih.staged, ih.closed⟩
  | case7 s waiting t decoded opened inner error answer =>
    rw [pings_quiet waiting decoded (.inr (by simp [answer]))]
    obtain ⟨rest, rfl⟩ := pollRead_reads answer
    rw [(decode_waits decoded).1]
    exact .same rfl rfl
  | case8 s waiting t decoded opened inner answer =>
    rw [pings_quiet waiting decoded (.inr (by simp [answer]))]
    obtain ⟨rest, rfl⟩ := pollRead_reads answer
    rw [(decode_waits decoded).1]
    exact .same rfl rfl

/-- `poll_write` stages one frame with the bytes it reports, or nothing; when it
fails, possibly a frame with the bytes it would have reported. -/
theorem pollWrite_stages (cx : Half) (data : Bytes) (s : WsStream) :
    (∃ count, (s.pollWrite cx data).2 = .ready (.ok count) ∧
      Stages s (s.pollWrite cx data).1 [⟨opBinary, data.take count⟩]) ∨
    (∃ error, (s.pollWrite cx data).2 = .ready (.error error) ∧
      ∃ gs, Stages s (s.pollWrite cx data).1 gs ∧
        ∀ g ∈ gs, gs = [g] ∧ g.opcode = opBinary ∧ g.payload <+: data) ∨
    ((s.pollWrite cx data).2 = .pending ∧ Stages s (s.pollWrite cx data).1 []) := by
  have first := drain_stages cx s
  unfold WsStream.pollWrite
  split
  · rename_i t drained
    rw [drained] at first
    dsimp only
    generalize taken : min data.length maxSend = take
    have staged : Stages t (t.frame opBinary (data.take take)) [⟨opBinary, data.take take⟩] := by
      refine ⟨?_, fun g member => ?_, id⟩
      · simp [WsStream.frame, ServerFrame.bytes]
      · rw [List.mem_singleton.mp member]
        refine .inl ⟨rfl, ?_⟩
        rw [List.length_take]
        omega
    have second := (first.trans staged).trans
      (drain_stages cx (t.frame opBinary (data.take take)))
    rw [List.nil_append, List.append_nil] at second
    split
    · rename_i u error pushed
      rw [pushed] at second
      refine .inr (.inl ⟨error, rfl, _, second, fun g member => ?_⟩)
      rw [List.mem_singleton.mp member]
      exact ⟨rfl, rfl, List.take_prefix _ _⟩
    · rename_i u result _ pushed
      rw [pushed] at second
      exact .inl ⟨_, rfl, second⟩
  · rename_i t error drained
    rw [drained] at first
    exact .inr (.inl ⟨error, rfl, [], first, by simp⟩)
  · rename_i t drained
    rw [drained] at first
    exact .inr (.inr ⟨rfl, first⟩)

private theorem settled_stages (cx : Half) (settle : Settle) (s : WsStream) :
    Stages s { s with inner := (s.inner.pollSettle cx settle).1 } [] := by
  refine .same ?_ rfl
  unfold Socket.pollSettle
  split
  · rfl
  · rfl
  · split <;> rfl

theorem pollFlush_stages (cx : Half) (settle : Settle) (s : WsStream) :
    Stages s (s.pollFlush cx settle).1 [] := by
  have first := drain_stages cx s
  unfold WsStream.pollFlush
  split
  · rename_i t drained
    rw [drained] at first
    exact first.trans (settled_stages cx settle t)
  · exact first

/-- `poll_shutdown` stages a Close unless there is or was one, and then the
stream is closed. -/
theorem pollShutdown_stages (cx : Half) (settle : Settle) (s : WsStream) :
    Stages s (s.pollShutdown cx settle).1 (if s.closed then [] else [⟨opClose, []⟩]) ∧
      (s.pollShutdown cx settle).1.closed = true := by
  generalize shape : (if s.closed then s else { s.frame opClose [] with closed := true }) = mid
  have staged : Stages s mid (if s.closed then [] else [⟨opClose, []⟩]) ∧ mid.closed = true := by
    subst shape
    by_cases shut : s.closed = true
    · rw [if_pos shut, if_pos shut]
      exact ⟨.same rfl rfl, shut⟩
    · rw [if_neg shut, if_neg shut]
      refine ⟨⟨?_, fun g member => ?_, fun _ => rfl⟩, rfl⟩
      · simp [WsStream.frame, ServerFrame.bytes]
      · rw [List.mem_singleton.mp member]
        exact .inr ⟨.inl rfl, Nat.zero_le _⟩
  have whole : (s.pollShutdown cx settle).1 = (mid.pollFlush cx settle).1 := by
    simp only [WsStream.pollShutdown, WsStream.pollFlush, shape]
  have flushed := pollFlush_stages cx settle mid
  rw [whole]
  refine ⟨?_, flushed.closed staged.2⟩
  have both := staged.1.trans flushed
  rwa [List.append_nil] at both

/-- The frames staged so far, against what the connection has been asked. -/
structure Output.Framed (o : Output) (fs : List ServerFrame) : Prop where
  bytes : o.stream.inner.sent ++ o.stream.outgoing = fs.flatMap ServerFrame.bytes
  staged : ∀ f ∈ fs, f.Staged
  data : o.broken = false → binaryOf fs = o.accepted
  pongs : pongsOf fs = answered o.pings
  once : ClosesOnce fs
  closing : ∀ f ∈ fs, f.opcode = opClose → o.shut = true
  shut : o.shut = true → o.stream.closed = true

theorem binaryOf_append (fs gs : List ServerFrame) :
    binaryOf (fs ++ gs) = binaryOf fs ++ binaryOf gs := by
  simp [binaryOf]

private theorem pongsOf_append (fs gs : List ServerFrame) :
    pongsOf (fs ++ gs) = pongsOf fs ++ pongsOf gs := by
  simp [pongsOf]

private theorem pongFrames_opcode {g : ServerFrame} (member : g ∈ pongFrames pings) :
    g.opcode = opPong := by
  obtain ⟨payload, -, rfl⟩ := List.mem_map.mp member
  rfl

theorem binaryOf_pongFrames (pings : List Ping) : binaryOf (pongFrames pings) = [] := by
  have none : (pongFrames pings).filter (fun f => f.opcode = opBinary) = [] := by
    rw [List.filter_eq_nil_iff]
    intro g member
    rw [pongFrames_opcode member]
    decide
  rw [binaryOf, none]
  rfl

/-- Nothing new is staged. -/
private theorem Output.Framed.still (framed : o.Framed fs) (stages : Stages o.stream t []) :
    Output.Framed { o with stream := t } fs := by
  refine ⟨?_, framed.staged, framed.data, framed.pongs, framed.once, framed.closing, ?_⟩
  · rw [stages.bytes, framed.bytes, List.flatMap_nil, List.append_nil]
  · exact fun shut => stages.closed (framed.shut shut)

private theorem Output.Framed.read (framed : o.Framed fs) (room : Nat) :
    Output.Framed { o with
      stream := (o.stream.pollRead .reader room).1
      pings := o.pings ++ o.stream.pings .reader room }
        (fs ++ pongFrames (o.stream.pings .reader room)) := by
  have stages := pollRead_stages .reader room o.stream
  generalize o.stream.pings .reader room = pings at stages ⊢
  have allPongs : pongsOf (pongFrames pings) = answered pings := by
    have all : (pongFrames pings).filter (fun f => f.opcode = opPong) = pongFrames pings := by
      rw [List.filter_eq_self]
      intro g member
      simp [pongFrames_opcode member]
    rw [pongsOf, all, pongFrames, List.map_map]
    exact List.map_id _
  refine ⟨?_, fun f member => ?_, fun whole => ?_, ?_, ?_, fun f member close => ?_, fun shut => ?_⟩
  · rw [stages.bytes, framed.bytes, List.flatMap_append]
  · rcases List.mem_append.mp member with old | new
    · exact framed.staged f old
    · exact stages.staged f new
  · rw [binaryOf_append, binaryOf_pongFrames, List.append_nil]
    exact framed.data whole
  · rw [pongsOf_append, framed.pongs, allPongs, answered, answered, answered, List.filter_append,
      List.map_append]
  · refine List.pairwise_append.mpr ⟨framed.once, ?_, fun f _ g member _ => ?_⟩
    · refine List.pairwise_of_forall_mem_list fun f _ g member _ => ?_
      rw [pongFrames_opcode member]
      exact ⟨by decide, by decide⟩
    · rw [pongFrames_opcode member]
      exact ⟨by decide, by decide⟩
  · rcases List.mem_append.mp member with old | new
    · exact framed.closing f old close
    · rw [pongFrames_opcode new] at close
      exact absurd close (by decide)
  · exact stages.closed (framed.shut shut)

/-- While nothing was shut down, data may follow. -/
private theorem Output.Framed.write {accepted : Bytes} {broken : Bool} (framed : o.Framed fs)
    (opened : o.shut = false) (stages : Stages o.stream t gs) (code : ∀ g ∈ gs, g.opcode = opBinary)
    (data : broken = false → binaryOf (fs ++ gs) = accepted) :
    Output.Framed { o with stream := t, accepted, broken } (fs ++ gs) := by
  have noClose {f : ServerFrame} (member : f ∈ fs) : f.opcode ≠ opClose := by
    intro close
    have shut := framed.closing f member close
    rw [opened] at shut
    cases shut
  have noPongs : pongsOf gs = [] := by
    have none : gs.filter (fun f => f.opcode = opPong) = [] := by
      rw [List.filter_eq_nil_iff]
      intro g member
      rw [code g member]
      decide
    rw [pongsOf, none]
    rfl
  have neither {g : ServerFrame} (member : g ∈ gs) : g.opcode ≠ opClose := by
    rw [code g member]
    decide
  refine ⟨?_, fun f member => ?_, data, ?_, ?_, fun f member close => ?_, fun shut => ?_⟩
  · rw [stages.bytes, framed.bytes, List.flatMap_append]
  · rcases List.mem_append.mp member with old | new
    · exact framed.staged f old
    · exact stages.staged f new
  · rw [pongsOf_append, noPongs, List.append_nil]
    exact framed.pongs
  · refine List.pairwise_append.mpr ⟨framed.once, ?_, fun f member g _ close => ?_⟩
    · exact List.pairwise_of_forall_mem_list fun f member g _ close => absurd close (neither member)
    · exact absurd close (noClose member)
  · rcases List.mem_append.mp member with old | new
    · exact absurd close (noClose old)
    · exact absurd close (neither new)
  · exact stages.closed (framed.shut shut)

private theorem Output.Framed.shutdown (framed : o.Framed fs) (settle : Settle) :
    Output.Framed { o with stream := (o.stream.pollShutdown .writer settle).1, shut := true }
      (fs ++ if o.stream.closed then [] else [⟨opClose, []⟩]) := by
  obtain ⟨stages, closed⟩ := pollShutdown_stages .writer settle o.stream
  refine ⟨?_, fun f member => ?_, fun whole => ?_, ?_, ?_, fun _ _ _ => rfl, fun _ => closed⟩
  · rw [stages.bytes, framed.bytes, List.flatMap_append]
  · rcases List.mem_append.mp member with old | new
    · exact framed.staged f old
    · exact stages.staged f new
  · have none : binaryOf (if o.stream.closed then [] else [⟨opClose, []⟩]) = [] := by
      split <;> rfl
    rw [binaryOf_append, none, List.append_nil]
    exact framed.data whole
  · have none : pongsOf (if o.stream.closed then [] else [⟨opClose, []⟩]) = [] := by
      split <;> rfl
    rw [pongsOf_append, none, List.append_nil]
    exact framed.pongs
  · refine List.pairwise_append.mpr ⟨framed.once, ?_, fun f member g new close => ?_⟩
    · split
      · exact .nil
      · exact List.pairwise_singleton _ _
    · have shut := framed.shut (framed.closing f member close)
      rw [if_pos shut] at new
      exact absurd new List.not_mem_nil

/-- Every poll stages whole frames. -/
theorem step_framed {act : OutputAct} (framed : o.Framed fs) (stepped : o.step act = some next) :
    ∃ gs, next.Framed gs := by
  cases act with
  | arrive answer =>
    cases stepped
    exact ⟨fs, framed.still (.same rfl rfl)⟩
  | hangUp =>
    cases stepped
    exact ⟨fs, framed.still (.same rfl rfl)⟩
  | writable answers =>
    cases stepped
    exact ⟨fs, framed.still (.same rfl rfl)⟩
  | pollRead room =>
    cases stepped
    exact ⟨_, framed.read room⟩
  | pollWrite data =>
    simp only [Output.step] at stepped
    obtain ⟨opened, stepped⟩ := Option.ite_none_left_eq_some.mp stepped
    have unshut : o.shut = false := by simpa using opened
    have cases := pollWrite_stages .writer data o.stream
    split at stepped
    · rename_i stream count wrote
      cases stepped
      rw [wrote] at cases
      obtain ⟨same, result, stages⟩ | ⟨error, result, -⟩ | ⟨result, -⟩ := cases
      · cases result
        refine ⟨_, framed.write unshut stages (by simp) fun whole => ?_⟩
        rw [binaryOf_append, framed.data whole]
        simp [binaryOf]
      · cases result
      · cases result
    · rename_i stream error wrote
      cases stepped
      rw [wrote] at cases
      obtain ⟨same, result, -⟩ | ⟨error, result, gs, stages, code⟩ | ⟨result, -⟩ := cases
      · cases result
      · exact ⟨_, framed.write unshut stages (fun g member => (code g member).2.1) (by simp)⟩
      · cases result
    · rename_i stream wrote
      cases stepped
      rw [wrote] at cases
      obtain ⟨same, result, -⟩ | ⟨error, result, -⟩ | ⟨-, stages⟩ := cases
      · cases result
      · cases result
      · exact ⟨fs, framed.still stages⟩
  | pollFlush settle =>
    cases stepped
    exact ⟨fs, framed.still (pollFlush_stages .writer settle o.stream)⟩
  | pollShutdown settle =>
    cases stepped
    exact ⟨_, framed.shutdown settle⟩

/-- The output of a connection, whatever is polled and whatever the socket does:
handed over and staged bytes together are whole unmasked server frames, the pongs
answer exactly the pings that came while at most `MAX_PONG_BACKLOG` bytes were
staged, there is at most one Close and no data behind it, and until a
`poll_write` has failed the data is just what was accepted. -/
theorem output_is_whole_frames {actions : List OutputAct}
    (ran : run Output.step {} actions = some final) :
    ∃ fs, readOutput (final.stream.inner.sent ++ final.stream.outgoing) = some fs ∧
      (final.broken = false → binaryOf fs = final.accepted) ∧
      pongsOf fs = answered final.pings ∧ ClosesOnce fs := by
  have start : ∃ fs, ({} : Output).Framed fs :=
    ⟨[], rfl, by simp, fun _ => rfl, rfl, .nil, by simp, by simp⟩
  obtain ⟨fs, framed⟩ := run_preserves (fun o : Output => ∃ fs, o.Framed fs)
    (fun _ _ _ holds stepped => by
      obtain ⟨fs, framed⟩ := holds
      exact step_framed framed stepped) start ran
  refine ⟨fs, ?_, framed.data, framed.pongs, framed.once⟩
  rw [framed.bytes]
  exact readOutput_frames framed.staged

/-- A write that is cut after three bytes, a ping answered behind it, and an
orderly end. -/
def mixedOutput : List OutputAct :=
  [.writable [.accept 3], .pollWrite [1, 2], .arrive (.data [0x89, 0x81, 0, 0, 0, 0, 7]), .pollRead 8,
    .pollShutdown .done]

theorem output_is_whole_frames_mixed : ∃ final, run Output.step {} mixedOutput = some final ∧
    final.accepted = [1, 2] ∧ final.pings = [⟨[7], 1⟩] ∧ final.stream.inner.sent = [0x82, 2, 1] ∧
    ∃ fs, readOutput (final.stream.inner.sent ++ final.stream.outgoing) = some fs ∧
      (final.broken = false → binaryOf fs = final.accepted) ∧
      pongsOf fs = answered final.pings ∧ ClosesOnce fs := by
  have runs : ((run Output.step {} mixedOutput).any fun final =>
      final.accepted = [1, 2] ∧ final.pings = [⟨[7], 1⟩] ∧
        final.stream.inner.sent = [0x82, 2, 1]) = true := by decide +kernel
  obtain ⟨final, ran, facts⟩ := run_reaches runs
  exact ⟨final, ran, facts.1, facts.2.1, facts.2.2, output_is_whole_frames ran⟩

end DshProxy.Ws

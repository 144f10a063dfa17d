import DshProxy.Io

/-! The WebSocket server of `ws.rs`: one connection presented as the byte
stream it carries. The functions below are the poll functions of the source,
over an inner socket that answers every read and write from two queues the
environment fills. An empty queue is a socket that is not ready, so every
pattern of partial writes, `Pending` results, errors and end of file is some
content of the two queues. -/
namespace DshProxy.Ws

/-- A frame larger than this is not a client of ours; it is a memory attack. -/
def maxFrame : Nat := 1024 * 1024
/-- RFC 6455 5.5: a control frame carries at most 125 bytes. -/
def maxControl : Nat := 125
/-- Stop queueing pongs once this much is already waiting for the socket. -/
def maxPongBacklog : Nat := 8 * 1024
/-- Outgoing payload per frame. -/
def maxSend : Nat := 64 * 1024
/-- `poll_read`'s scratch buffer: the most one socket read can return. -/
def scratchLen : Nat := 16 * 1024

def opContinuation : UInt8 := 0x0
def opText : UInt8 := 0x1
def opBinary : UInt8 := 0x2
def opClose : UInt8 := 0x8
def opPing : UInt8 := 0x9
def opPong : UInt8 := 0xa

def bad (message : String) : IoError := ⟨.invalidData, message⟩

/-- The two tasks that poll one split `WsStream`. A waker is known by the task
it wakes. -/
inductive Half
  | reader
  | writer
  deriving DecidableEq, Repr

/-- One answer of the inner socket to a read: bytes that had arrived, or an
error. -/
inductive ReadAnswer
  | data (bytes : Bytes)
  | fail (error : IoError)
  deriving DecidableEq, Repr

/-- One answer of the inner socket to a write: how many of the offered bytes
it is willing to take, or an error. -/
inductive WriteAnswer
  | accept (count : Nat)
  | fail (error : IoError)
  deriving DecidableEq, Repr

/-- The inner socket. `waker` is its one write-waker slot, `sent` every byte
it has been handed. -/
structure Socket where
  reads : List ReadAnswer := []
  eof : Bool := false
  writes : List WriteAnswer := []
  waker : Option Half := none
  sent : Bytes := []
  deriving DecidableEq, Repr

/-- The socket's own `poll_read` into a scratch buffer. No bytes is end of file. -/
def Socket.pollRead (socket : Socket) : Socket × Poll (Result Bytes) :=
  match socket.reads with
  | .data bytes :: rest => ({ socket with reads := rest }, .ready (.ok bytes))
  | .fail error :: rest => ({ socket with reads := rest }, .ready (.error error))
  | [] => (socket, if socket.eof then .ready (.ok []) else .pending)

/-- The socket's own `poll_write`. Room it offered and the caller did not use
stays. Only a `Pending` result takes the waker, and the slot keeps the most
recent one. -/
def Socket.pollWrite (cx : Half) (buf : Bytes) (socket : Socket) :
    Socket × Poll (Result Nat) :=
  match socket.writes with
  | .accept count :: rest =>
    let taken := min count buf.length
    ({ socket with
        writes := if taken < count then .accept (count - taken) :: rest else rest
        sent := socket.sent ++ buf.take taken }, .ready (.ok taken))
  | .fail error :: rest => ({ socket with writes := rest }, .ready (.error error))
  | [] => ({ socket with waker := some cx }, .pending)

/-- How the layers below the socket take a flush or a shutdown. -/
inductive Settle
  | done
  | blocked
  | fail (error : IoError)
  deriving DecidableEq, Repr

/-- The socket's own `poll_flush` and `poll_shutdown`. They push what the
layers below still hold: only a socket that is not writable keeps them
waiting, and then they take the waker as a write does. -/
def Socket.pollSettle (cx : Half) (settle : Settle) (socket : Socket) :
    Socket × Poll (Result Unit) :=
  match settle with
  | .fail error => (socket, .ready (.error error))
  | .done => (socket, .ready (.ok ()))
  | .blocked =>
    if socket.writes = [] then ({ socket with waker := some cx }, .pending)
    else (socket, .ready (.ok ()))

structure WsStream where
  inner : Socket := {}
  /-- Bytes read from the socket that are not yet a whole frame. -/
  incoming : Bytes := []
  /-- Payload bytes waiting for the reader. -/
  plain : Bytes := []
  /-- Frames waiting for the socket: our data, plus any pong we owe. -/
  outgoing : Bytes := []
  /-- A close frame arrived; the stream ends once `plain` is drained. -/
  closed : Bool := false
  deriving DecidableEq, Repr

/-- The bytes of one server frame. Server frames are never masked. -/
def frameBytes (opcode : UInt8) (payload : Bytes) : Bytes :=
  (0x80 ||| opcode) ::
    (if payload.length < 126 then [UInt8.ofNat payload.length]
      else if payload.length ≤ 65535 then 126 :: ByteOrder.toBe 2 payload.length
      else 127 :: ByteOrder.toBe 8 payload.length) ++ payload

/-- Stage one server frame. -/
def WsStream.frame (opcode : UInt8) (payload : Bytes) (s : WsStream) : WsStream :=
  { s with outgoing := s.outgoing ++ frameBytes opcode payload }

/-- `*byte ^= mask[index % 4]` over a payload. -/
def unmask (mask : Bytes) (payload : Bytes) : Bytes :=
  payload.mapIdx fun index byte => byte ^^^ mask.getD (index % 4) 0

/-- The declared length and where it ends, once enough of the header is in. -/
def declaredLength (incoming : Bytes) (short : Nat) : Option (Nat × Nat) :=
  if short = 126 then
    if incoming.length < 4 then none else some (ByteOrder.ofBe ((incoming.drop 2).take 2), 4)
  else if short = 127 then
    if incoming.length < 10 then none else some (ByteOrder.ofBe ((incoming.drop 2).take 8), 10)
  else some (short, 2)

/-- What `decode` makes of the front of `incoming` before it touches anything. -/
inductive Scan
  | partly
  | refused (error : IoError)
  | whole (opcode : UInt8) (payload rest : Bytes)
  deriving DecidableEq, Repr

/-- The checks of `decode` in their order, up to the unmasked payload. -/
def scan (incoming : Bytes) : Scan :=
  match incoming with
  | first :: second :: _ =>
    let fin := first &&& 0x80 != 0
    let opcode := first &&& 0x0f
    let masked := second &&& 0x80 != 0
    let control := opcode &&& 0x08 != 0
    let short := (second &&& 0x7f).toNat
    -- Checked before the length is even read: a control frame that claims a
    -- 16-bit or 64-bit length is already lying.
    if control && (!fin || decide (maxControl < short)) then
      .refused (bad "oversized or fragmented control frame")
    else
      match declaredLength incoming short with
      | none => .partly
      | some (length, offset) =>
        if maxFrame < length then .refused (bad "websocket frame is too large")
        else if !masked then .refused (bad "client frame is not masked")
        else if incoming.length < offset + 4 then .partly
        else if incoming.length < offset + 4 + length then .partly
        else .whole opcode
          (unmask ((incoming.drop offset).take 4) ((incoming.drop (offset + 4)).take length))
          (incoming.drop (offset + 4 + length))
  | _ => .partly

/-- Take one complete frame out of `incoming`; payload lands in `plain`. The
result says whether a frame was consumed. An unknown opcode is refused only
after its frame has left `incoming`. -/
def WsStream.decode (s : WsStream) : WsStream × Result Bool :=
  match scan s.incoming with
  | .partly => (s, .ok false)
  | .refused error => (s, .error error)
  | .whole opcode payload rest =>
    let s := { s with incoming := rest }
    if opcode = opContinuation ∨ opcode = opText ∨ opcode = opBinary then
      ({ s with plain := s.plain ++ payload }, .ok true)
    else if opcode = opClose then ({ s with closed := true }, .ok true)
    else if opcode = opPing then
      (if s.outgoing.length ≤ maxPongBacklog then s.frame opPong payload else s, .ok true)
    else if opcode = opPong then (s, .ok true)
    else (s, .error (bad "unknown websocket opcode"))

/-- Push staged frames at the socket, without blocking the caller. -/
def WsStream.drain (cx : Half) (s : WsStream) : WsStream × Poll (Result Unit) :=
  if s.outgoing = [] then (s, .ready (.ok ()))
  else
    match _answer : s.inner.pollWrite cx s.outgoing with
    | (inner, .ready (.ok 0)) => ({ s with inner }, .ready (.error (bad "websocket closed")))
    | (inner, .ready (.ok (count + 1))) =>
      WsStream.drain cx { s with inner, outgoing := s.outgoing.drop (count + 1) }
    | (inner, .ready (.error error)) => ({ s with inner }, .ready (.error error))
    | (inner, .pending) => ({ s with inner }, .pending)
termination_by s.outgoing.length
decreasing_by
  have some := List.length_pos_iff.mpr ‹¬ s.outgoing = []›
  simp only [List.length_drop]
  omega

/-- How many bytes the socket takes before it blocks or fails. -/
def willing : List WriteAnswer → Nat
  | .accept (count + 1) :: rest => count + 1 + willing rest
  | _ => 0

/-- What `drain` can do: it moves a front part of `outgoing` to the socket and
nothing else, takes the waker exactly when it ends in `Pending`, and reports
success exactly when nothing is left, which is when the socket has room. -/
structure Drained (cx : Half) (s t : WsStream) (result : Poll (Result Unit)) : Prop where
  incoming : t.incoming = s.incoming
  plain : t.plain = s.plain
  closed : t.closed = s.closed
  reads : t.inner.reads = s.inner.reads
  eof : t.inner.eof = s.inner.eof
  moved : t.inner.sent ++ t.outgoing = s.inner.sent ++ s.outgoing
  grown : s.inner.sent <+: t.inner.sent
  waker : t.inner.waker = if result = .pending then some cx else s.inner.waker
  parked : result = .pending → t.outgoing ≠ [] ∧ t.inner.writes = []
  emptied : result = .ready (.ok ()) → t.outgoing = []
  idle : s.outgoing = [] → t = s ∧ result = .ready (.ok ())
  roomy : s.outgoing.length ≤ willing s.inner.writes →
    result = .ready (.ok ()) ∧ willing t.inner.writes = willing s.inner.writes - s.outgoing.length

private theorem pollWrite_cases {socket inner : Socket}
    (answer : socket.pollWrite cx buf = (inner, result)) :
    (∃ count rest, socket.writes = .accept count :: rest ∧
      inner = { socket with
        writes := if min count buf.length < count
          then .accept (count - min count buf.length) :: rest else rest
        sent := socket.sent ++ buf.take (min count buf.length) } ∧
      result = .ready (.ok (min count buf.length))) ∨
    (∃ error rest, socket.writes = .fail error :: rest ∧
      inner = { socket with writes := rest } ∧ result = .ready (.error error)) ∨
    (socket.writes = [] ∧ inner = { socket with waker := some cx } ∧ result = .pending) := by
  unfold Socket.pollWrite at answer
  split at answer
  · cases answer
    exact .inl ⟨_, _, by assumption, rfl, rfl⟩
  · cases answer
    exact .inr (.inl ⟨_, _, by assumption, rfl, rfl⟩)
  · cases answer
    exact .inr (.inr ⟨by assumption, rfl, rfl⟩)

theorem drain_spec (cx : Half) (s : WsStream) :
    Drained cx s (s.drain cx).1 (s.drain cx).2 := by
  fun_induction WsStream.drain cx s with
  | case1 s empty => constructor <;> simp_all
  | case2 s nonempty inner answer =>
    have some := List.length_pos_iff.mpr nonempty
    obtain ⟨count, rest, writes, rfl, taken⟩ | ⟨error, rest, writes, rfl, taken⟩ |
      ⟨writes, rfl, taken⟩ := pollWrite_cases answer
    · have zero : count = 0 := by
        have none : min count s.outgoing.length = 0 := by simpa using taken.symm
        omega
      subst zero
      constructor <;> simp_all [willing]
    · simp at taken
    · simp at taken
  | case3 s nonempty inner count answer ih =>
    obtain ⟨asked, rest, writes, rfl, taken⟩ | ⟨error, rest, writes, rfl, taken⟩ |
      ⟨writes, rfl, taken⟩ := pollWrite_cases answer
    · have some : min asked s.outgoing.length = count + 1 := by simpa using taken.symm
      rw [some] at ih ⊢
      have sameBytes : s.inner.sent ++ s.outgoing.take (count + 1) ++ s.outgoing.drop (count + 1) =
          s.inner.sent ++ s.outgoing := by simp
      have left : willing (if count + 1 < asked then .accept (asked - (count + 1)) :: rest else rest) =
          willing s.inner.writes - (count + 1) ∧ count + 1 ≤ willing s.inner.writes := by
        obtain ⟨more, rfl⟩ : ∃ more, asked = count + 1 + more := ⟨asked - (count + 1), by omega⟩
        cases more with
        | zero => simp [writes, willing]
        | succ more =>
          rw [if_pos (by omega), show count + 1 + (more + 1) - (count + 1) = more + 1 by omega, writes,
            show count + 1 + (more + 1) = count + 1 + more + 1 by omega]
          simp only [willing]
          omega
      refine ⟨ih.incoming, ih.plain, ih.closed, ih.reads, ih.eof, ih.moved.trans sameBytes,
        (List.prefix_append _ _).trans ih.grown, ih.waker, ih.parked, ih.emptied, ?_, ?_⟩
      · exact fun empty => absurd empty nonempty
      · intro fits
        have rest := ih.roomy (by simp only [List.length_drop]; omega)
        refine ⟨rest.1, rest.2.trans ?_⟩
        simp only [List.length_drop]
        omega
    · simp at taken
    · simp at taken
  | case4 s nonempty inner error answer =>
    have some := List.length_pos_iff.mpr nonempty
    obtain ⟨count, rest, writes, rfl, taken⟩ | ⟨failure, rest, writes, rfl, taken⟩ |
      ⟨writes, rfl, taken⟩ := pollWrite_cases answer
    · simp at taken
    · constructor <;> simp_all [willing]
    · simp at taken
  | case5 s nonempty inner answer =>
    have some := List.length_pos_iff.mpr nonempty
    obtain ⟨count, rest, writes, rfl, taken⟩ | ⟨error, rest, writes, rfl, taken⟩ |
      ⟨writes, rfl, taken⟩ := pollWrite_cases answer
    · simp at taken
    · simp at taken
    · constructor <;> simp_all [willing]

/-- A whole frame is longer than what it leaves behind. -/
theorem scan_shrinks (found : scan incoming = .whole opcode payload rest) :
    rest.length < incoming.length := by
  unfold scan at found
  split at found
  · dsimp only at found
    split at found
    · cases found
    · split at found
      · cases found
      · split_ifs at found
        cases found
        simp only [List.length_drop, List.length_cons]
        omega
  · cases found

/-- Everything `decode` can do to a stream, by what `scan` finds. -/
theorem decode_cases (s : WsStream) :
    (scan s.incoming = .partly ∧ s.decode = (s, .ok false)) ∨
    (∃ error, scan s.incoming = .refused error ∧ s.decode = (s, .error error)) ∨
    (∃ opcode payload rest, scan s.incoming = .whole opcode payload rest ∧
      ((opcode = opContinuation ∨ opcode = opText ∨ opcode = opBinary) ∧
          s.decode = ({ s with incoming := rest, plain := s.plain ++ payload }, .ok true) ∨
        opcode = opClose ∧ s.decode = ({ s with incoming := rest, closed := true }, .ok true) ∨
        opcode = opPing ∧
          s.decode = ({ s with
            incoming := rest
            outgoing := if s.outgoing.length ≤ maxPongBacklog
              then s.outgoing ++ frameBytes opPong payload else s.outgoing }, .ok true) ∨
        opcode = opPong ∧ s.decode = ({ s with incoming := rest }, .ok true) ∨
        opcode ∉ [opContinuation, opText, opBinary, opClose, opPing, opPong] ∧
          s.decode = ({ s with incoming := rest }, .error (bad "unknown websocket opcode")))) := by
  unfold WsStream.decode
  cases found : scan s.incoming with
  | partly => exact .inl ⟨rfl, rfl⟩
  | refused error => exact .inr (.inl ⟨error, rfl, rfl⟩)
  | whole opcode payload rest =>
    refine .inr (.inr ⟨opcode, payload, rest, rfl, ?_⟩)
    dsimp only
    split
    · exact .inl ⟨by assumption, rfl⟩
    · split
      · exact .inr (.inl ⟨by assumption, rfl⟩)
      · split
        · refine .inr (.inr (.inl ⟨by assumption, ?_⟩))
          split <;> rfl
        · split
          · exact .inr (.inr (.inr (.inl ⟨by assumption, rfl⟩)))
          · refine .inr (.inr (.inr (.inr ⟨?_, rfl⟩)))
            simp_all

/-- What one `poll_read` may still have to work through: bytes not decoded yet
and answers the socket holds. -/
def WsStream.backlog (s : WsStream) : Nat :=
  s.incoming.length + (s.inner.reads.map fun
    | .data bytes => bytes.length + 1
    | .fail _ => 1).sum

theorem decode_backlog {s t : WsStream} (consumed : s.decode = (t, .ok true)) : t.backlog < s.backlog := by
  obtain ⟨-, done⟩ | ⟨error, -, done⟩ | ⟨opcode, payload, rest, found, done⟩ := decode_cases s
  · simp [done] at consumed
  · simp [done] at consumed
  · have shorter := scan_shrinks found
    obtain ⟨-, done⟩ | ⟨-, done⟩ | ⟨-, done⟩ | ⟨-, done⟩ | ⟨-, done⟩ := done <;>
    · rw [done] at consumed
      cases consumed
      try simpa [WsStream.backlog] using shorter

/-- A socket read uses up read answers and nothing else. -/
theorem pollRead_reads {socket inner : Socket} (answer : socket.pollRead = (inner, result)) :
    ∃ rest, inner = { socket with reads := rest } := by
  unfold Socket.pollRead at answer
  split at answer <;> cases answer <;> exact ⟨_, rfl⟩

theorem pollRead_backlog {socket inner : Socket}
    (answer : socket.pollRead = (inner, .ready (.ok (byte :: bytes)))) :
    ∃ rest, socket.reads = .data (byte :: bytes) :: rest ∧ inner = { socket with reads := rest } := by
  unfold Socket.pollRead at answer
  split at answer
  · cases answer
    exact ⟨_, by assumption, rfl⟩
  · cases answer
  · split at answer <;> cases answer

/-- `AsyncRead::poll_read` into a buffer with room for `room` bytes. -/
def WsStream.pollRead (cx : Half) (room : Nat) (s : WsStream) : WsStream × Poll (Result Bytes) :=
  if s.plain ≠ [] then
    ({ s with plain := s.plain.drop room }, .ready (.ok (s.plain.take room)))
  else
    -- Drain what is already buffered before asking for more.
    match _decoded : s.decode with
    | (t, .error error) => (t, .ready (.error error))
    -- A control frame may have queued a pong; get it moving, but never block
    -- the read on it.
    | (t, .ok true) => WsStream.pollRead cx room (t.drain cx).1
    | (t, .ok false) =>
      if t.closed then (t, .ready (.ok []))
      else
        match _answer : t.inner.pollRead with
        | (inner, .ready (.ok [])) => ({ t with inner }, .ready (.ok []))
        | (inner, .ready (.ok (byte :: bytes))) =>
          WsStream.pollRead cx room { t with inner, incoming := t.incoming ++ byte :: bytes }
        | (inner, .ready (.error error)) => ({ t with inner }, .ready (.error error))
        | (inner, .pending) => ({ t with inner }, .pending)
termination_by s.backlog
decreasing_by
  · have kept := drain_spec cx t
    have smaller := decode_backlog _decoded
    simpa only [WsStream.backlog, kept.incoming, kept.reads] using smaller
  · obtain ⟨-, done⟩ | ⟨error, -, done⟩ | ⟨opcode, payload, rest, _found, done⟩ := decode_cases s
    · rw [done] at _decoded
      cases _decoded
      obtain ⟨rest, reads, rfl⟩ := pollRead_backlog _answer
      simp [WsStream.backlog, reads]
      omega
    · simp [done] at _decoded
    · simp [_decoded] at done

/-- `AsyncWrite::poll_write`. Staged either way: a partial flush finishes on
the next poll. -/
def WsStream.pollWrite (cx : Half) (data : Bytes) (s : WsStream) : WsStream × Poll (Result Nat) :=
  match s.drain cx with
  | (s, .ready (.ok ())) =>
    let take := min data.length maxSend
    match (s.frame opBinary (data.take take)).drain cx with
    | (s, .ready (.error error)) => (s, .ready (.error error))
    | (s, _) => (s, .ready (.ok take))
  | (s, .ready (.error error)) => (s, .ready (.error error))
  | (s, .pending) => (s, .pending)

/-- `AsyncWrite::poll_flush`; `settle` is how the inner socket takes its own. -/
def WsStream.pollFlush (cx : Half) (settle : Settle) (s : WsStream) :
    WsStream × Poll (Result Unit) :=
  match s.drain cx with
  | (s, .ready (.ok ())) =>
    let (inner, result) := s.inner.pollSettle cx settle
    ({ s with inner }, result)
  | other => other

/-- `AsyncWrite::poll_shutdown`: one Close frame, then the socket's own. -/
def WsStream.pollShutdown (cx : Half) (settle : Settle) (s : WsStream) :
    WsStream × Poll (Result Unit) :=
  let s := if s.closed then s else { s.frame opClose [] with closed := true }
  match s.drain cx with
  | (s, .ready (.ok ())) =>
    let (inner, result) := s.inner.pollSettle cx settle
    ({ s with inner }, result)
  | other => other

end DshProxy.Ws

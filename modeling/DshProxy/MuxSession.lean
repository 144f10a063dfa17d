import DshProxy.Sync
import DshProxy.Wire

/-! `MuxSession`: one bridge link, the streams riding it and the two tasks that
carry it. Every function below is one uninterrupted piece of the source: what a
task does between two points where another task can be seen. A stream's inbox
and credit outlive its map entry, so the map holds positions in an arena and a
stream is known by its position even when its id has been given to another. -/
namespace DshProxy.Mux
open Sync Wire ByteOrder

/-- mux frame kinds; a byte that names none of them is kept as it is. -/
inductive Kind
  | opening
  | data
  | close
  | window
  | other (code : UInt8)
  deriving DecidableEq, Repr

def Kind.ofByte (code : UInt8) : Kind :=
  if code = 0 then .opening else if code = 1 then .data else if code = 2 then .close
  else if code = 3 then .window else .other code

def Kind.toByte : Kind → UInt8
  | .opening => 0
  | .data => 1
  | .close => 2
  | .window => 3
  | .other code => code

structure Frame where
  id : UInt32
  kind : Kind
  payload : Bytes
  deriving DecidableEq, Repr

def Frame.control (id : UInt32) (kind : Kind) : Frame := ⟨id, kind, []⟩

/-- `read_loop`'s header parse of one decrypted record; `none` is "short frame". -/
def Frame.parse (plain : Bytes) : Option Frame :=
  if plain.length < frameHead then none
  else some ⟨UInt32.ofNat (ofBe (plain.take 4)), .ofByte (plain.getD 4 0), plain.drop frameHead⟩

/-- `grant`: a WINDOW frame with the amount as a big-endian u32. -/
def Frame.grant (id : UInt32) (bytes : Nat) : Frame := ⟨id, .window, toBe 4 bytes⟩

/-- The parts of a `StreamState` that live as long as anyone holds them. `since`
is how many frames `read_loop` had read when the stream was inserted. -/
structure Stream where
  id : UInt32 := 0
  since : Nat := 0
  inbox : Channel Bytes := {}
  credit : Semaphore := ⟨window, false⟩
  deriving DecidableEq

/-- Where the reader task stands. -/
inductive Reader
  /-- In `reader.next()`. -/
  | idle
  /-- Sending the keepalive echo. -/
  | echo
  /-- OPEN: a budget slot is held, the stream is not in the map yet. -/
  | accepting (id : UInt32)
  /-- DATA: the inbox has been looked up and cloned. -/
  | offer (id : UInt32) (stream : Nat) (body : Bytes)
  /-- The `Full` arm, before it removes the stream. -/
  | overflow (id : UInt32) (stream : Nat)
  /-- Sending CLOSE, for a refused OPEN or, with the inbox still in hand, an
  overflow. -/
  | refuse (id : UInt32) (stream : Option Nat)
  /-- The loop has returned; the map is about to be cleared. -/
  | dying
  /-- The map is cleared; the writer is about to be aborted. -/
  | aborting
  | ended
  deriving DecidableEq, Repr

/-- The stream whose inbox the reader holds a sender of. -/
def Reader.holds : Reader → Option Nat
  | .offer _ stream _ | .overflow _ stream => some stream
  | .refuse _ stream => stream
  | _ => none

/-- One link. The outbox keeps every frame ever queued; the writer has taken
`out.taken` of them and put `fed` of those on the link. `log` is every frame
`read_loop` has read. `limbo` counts stream states that have left the map and
whose budget slot is not back yet. -/
structure Session where
  out : Channel Frame := {}
  fed : Nat := 0
  streams : UInt32 → Option Nat := fun _ => none
  arena : Nat → Stream := fun _ => {}
  created : Nat := 0
  /-- `next_id` without its wrap-around: one more than the ids drawn so far. -/
  nextId : Nat := 1
  budget : Nat
  limbo : Nat := 0
  reader : Reader := .idle
  log : List Frame := []
  /-- A handler is registered for streams the peer opens. -/
  onOpen : Bool := false
  /-- `shutdown` calls that have cleared the map and not aborted yet. -/
  shutdowns : Nat := 0
  /-- The reader's abort handle has been used. -/
  aborted : Bool := false

namespace Session

/-- `MuxSession::start`. On a ceiling from 2^61 on, which the flags accept,
`Semaphore::new` panics; there is no session then. -/
def start (maxStreams : Nat) (onOpen : Bool) : Session := { budget := max maxStreams 1, onOpen }

variable (s : Session)

def modify (stream : Nat) (change : Stream → Stream) : Session :=
  { s with arena := Function.update s.arena stream (change (s.arena stream)) }

/-- `credit.close()`. -/
def closeGate (stream : Nat) : Session :=
  s.modify stream fun st => { st with credit := st.credit.close }

/-- `streams.remove(&id)`. -/
def remove (id : UInt32) : Session :=
  match s.streams id with
  | none => s
  | some _ => { s with streams := Function.update s.streams id none, limbo := s.limbo + 1 }

/-- `if let Some((_, state)) = streams.remove(&id) { state.credit.close(); }`. Others
can act between the two calls, and still they are one piece here. Nothing is lost by
it: what looks at the map there does not look at the gate, and comes out as it would
after both; and a send that is still let through the gate is one that was let through
before the removal. -/
def removeAndClose (id : UInt32) : Session :=
  match s.streams id with
  | none => s
  | some stream => (s.remove id).closeGate stream

/-- `streams.insert(id, StreamState { .. })` with a fresh channel and semaphore.
A state that was there before is dropped. -/
def insert (id : UInt32) : Session :=
  { s with
    streams := Function.update s.streams id (some s.created)
    arena := Function.update s.arena s.created { id, since := s.log.length }
    created := s.created + 1
    limbo := if (s.streams id).isSome then s.limbo + 1 else s.limbo }

/-- `stream_count()`. -/
def count : Nat := (List.range s.created).countP fun n => s.streams (s.arena n).id = some n

/-- `streams.retain(|_, state| { state.credit.close(); false })`. -/
def clear : Session :=
  { s with
    streams := fun _ => none
    arena := fun n =>
      if s.streams (s.arena n).id = some n then
        { s.arena n with credit := (s.arena n).credit.close }
      else s.arena n
    limbo := s.limbo + s.count }

/-- An awaited `out.send` gets its place in the outbox. -/
def enqueue (frame : Frame) : Option Session :=
  if s.out.isOpen = true ∧ s.out.len < outboxFrames then some { s with out := s.out.push frame }
  else none

/-- `self.budget.try_acquire_owned()`. -/
def reserve : Option Session :=
  if s.budget = 0 then none else some { s with budget := s.budget - 1 }

/-- What `read_loop` does at once with a frame it has read. -/
def dispatch (frame : Frame) : Session :=
  -- streamId 0 is the keepalive channel: echo it.
  if frame.id = 0 then { s with reader := .echo }
  else
    match frame.kind with
    | .opening =>
      match s.reserve with
      | some s => { s with reader := .accepting frame.id }
      | none => { s with reader := .refuse frame.id none }
    | .data =>
      match s.streams frame.id with
      | some stream => { s with reader := .offer frame.id stream frame.payload }
      | none => s
    | .window =>
      if frame.payload.length = 4 then
        match s.streams frame.id with
        | some stream =>
          s.modify stream fun st =>
            { st with credit := st.credit.addPermits (ofBe frame.payload) }
        | none => s
      else s
    | .close => s.removeAndClose frame.id
    | .other _ => s

/-- The steps of the two link tasks, and of whoever drops a removed state. -/
inductive Act
  /-- `reader.next()` yields one decrypted record. -/
  | recv (plain : Bytes)
  /-- `reader.next()` yields the end, an error, or the idle timeout. -/
  | lapse
  /-- The reader's next uninterrupted piece of work. -/
  | advance
  /-- The reader's awaited send goes through, or fails on a dead outbox. -/
  | reply
  /-- The writer takes a batch, puts its next frame on the link, or dies. -/
  | takeBatch (count : Nat)
  | feed
  | writerEnds
  /-- An aborted reader ends where it waits. -/
  | readerAborted
  /-- A removed state is dropped and its budget slot returns. -/
  | release
  /-- `shutdown()`: clear the map, then use the abort handles. -/
  | shutdownClear
  | shutdownAbort
  deriving DecidableEq, Repr

/-- An awaited send of the reader: back to the loop, or out of it. -/
def readerSends (frame : Frame) : Option Session :=
  if s.out.isOpen = true then (s.enqueue frame).map fun s => { s with reader := .idle }
  else some { s with reader := .dying }

def step : Act → Option Session
  | .recv plain =>
    if s.reader = .idle ∧ plain.length ≤ maxNoiseMsg - tagLen then
      match Frame.parse plain with
      | none => some { s with reader := .dying }
      | some frame => some (dispatch { s with log := s.log ++ [frame] } frame)
    else none
  | .lapse => if s.reader = .idle then some { s with reader := .dying } else none
  | .advance =>
    match s.reader with
    | .accepting id =>
      let inserted := { s.insert id with reader := .idle }
      -- Without a handler both halves are dropped here.
      some (if s.onOpen then inserted
        else inserted.modify s.created fun st => { st with inbox := st.inbox.close })
    | .offer id stream body =>
      match (s.arena stream).inbox.trySend inboxFrames body with
      | .ok inbox => some { s.modify stream fun st => { st with inbox } with reader := .idle }
      | .closed => some { s with reader := .idle }
      | .full => some { s with reader := .overflow id stream }
    | .overflow id stream => some { s.removeAndClose id with reader := .refuse id (some stream) }
    | .dying => some { s.clear with reader := .aborting }
    | .aborting => some { s with reader := .ended }
    | .idle | .echo | .refuse _ _ | .ended => none
  | .reply =>
    match s.reader with
    | .echo => s.readerSends (.control 0 .data)
    | .refuse id _ => s.readerSends (.control id .close)
    | _ => none
  | .takeBatch count =>
    if s.fed = s.out.taken ∧ 0 < count ∧ count ≤ min writeBatch s.out.len ∧ s.out.isOpen = true then
      some { s with out := s.out.advance count }
    else none
  | .feed =>
    if s.fed < s.out.taken ∧ s.out.isOpen = true then some { s with fed := s.fed + 1 } else none
  | .writerEnds => some { s with out := s.out.close }
  | .readerAborted =>
    match s.reader with
    | .idle | .echo | .refuse _ _ => if s.aborted then some { s with reader := .ended } else none
    | _ => none
  | .release =>
    if 0 < s.limbo then some { s with limbo := s.limbo - 1, budget := s.budget + 1 } else none
  | .shutdownClear => some { s.clear with shutdowns := s.shutdowns + 1 }
  | .shutdownAbort =>
    if 0 < s.shutdowns then some { s with shutdowns := s.shutdowns - 1, aborted := true } else none

/-- An awaited `send` of a task: `ok` once the frame has its place, `error` on a
dead outbox. -/
def sends (frame : Frame) (ok error : β) : Option (Session × β) :=
  if s.out.isOpen = true then (s.enqueue frame).map (·, ok) else some (s, error)

/-- `out.try_send`. A full outbox refuses it, and so does one whose free places
are promised to tasks already waiting, so an attempt may fail at any time. -/
def trySends (frame : Frame) (sent : Bool) : Option Session :=
  if sent then s.enqueue frame else some s

/-- `inbox.recv()` with a chunk there. -/
def take (stream : Nat) : Option (Bytes × Session) :=
  (s.arena stream).inbox.recv.map fun (chunk, inbox) =>
    (chunk, s.modify stream fun st => { st with inbox })

/-- The receive half of a stream is dropped. -/
def hangUp (stream : Nat) : Session :=
  s.modify stream fun st => { st with inbox := st.inbox.close }

/-- `close_stream`. -/
def closeStream (stream : Nat) (sent : Bool) : Option Session :=
  (s.removeAndClose (s.arena stream).id).trySends (.control (s.arena stream).id .close) sent

end Session

/-- Changing one stream leaves the others alone. -/
theorem arena_modify_other (s : Session) {stream n : Nat} (change : Stream → Stream) (other : n ≠ stream) :
    (s.modify stream change).arena n = s.arena n :=
  Function.update_of_ne other _ _

/-- And a change that keeps a field of the one keeps it everywhere. -/
theorem modify_kept (s : Session) {stream : Nat} {change : Stream → Stream} (field : Stream → β)
    (same : field (change (s.arena stream)) = field (s.arena stream)) (n : Nat) :
    field ((s.modify stream change).arena n) = field (s.arena n) := by
  by_cases here : n = stream
  · subst here
    exact (congrArg field (Function.update_self n _ _)).trans same
  · rw [arena_modify_other s change here]

/-- A frame on a stream's id that `read_loop` has nothing to do for. -/
def Session.Ignores (s : Session) (frame : Frame) : Prop :=
  match frame.kind with
  | .opening | .close => False
  | .data => s.streams frame.id = none
  | .window => frame.payload.length ≠ 4 ∨ s.streams frame.id = none
  | .other _ => True

/-- What `read_loop` does with one frame it has read. -/
inductive Heard (s : Session) (frame : Frame) : Session → Prop
  | keepalive (zero : frame.id = 0) :
    Heard s frame { s with log := s.log ++ [frame], reader := .echo }
  | opens (stream : frame.id ≠ 0) (kind : frame.kind = .opening) (free : s.budget ≠ 0) :
    Heard s frame { s with
      log := s.log ++ [frame], budget := s.budget - 1, reader := .accepting frame.id }
  | overBudget (stream : frame.id ≠ 0) (kind : frame.kind = .opening) (full : s.budget = 0) :
    Heard s frame { s with log := s.log ++ [frame], reader := .refuse frame.id none }
  | data (aim) (stream : frame.id ≠ 0) (kind : frame.kind = .data)
    (found : s.streams frame.id = some aim) :
    Heard s frame { s with log := s.log ++ [frame], reader := .offer frame.id aim frame.payload }
  | grants (aim) (stream : frame.id ≠ 0) (kind : frame.kind = .window)
    (four : frame.payload.length = 4) (found : s.streams frame.id = some aim) :
    Heard s frame (({ s with log := s.log ++ [frame] } : Session).modify aim fun st =>
      { st with credit := st.credit.addPermits (ofBe frame.payload) })
  | closes (stream : frame.id ≠ 0) (kind : frame.kind = .close) :
    Heard s frame (({ s with log := s.log ++ [frame] } : Session).removeAndClose frame.id)
  | ignores (stream : frame.id ≠ 0) (nothing : s.Ignores frame) :
    Heard s frame { s with log := s.log ++ [frame] }

theorem dispatch_heard (s : Session) (frame : Frame) :
    Heard s frame (({ s with log := s.log ++ [frame] } : Session).dispatch frame) := by
  unfold Session.dispatch
  split
  · exact .keepalive (by assumption)
  · rename_i stream
    split
    · rename_i kind
      unfold Session.reserve
      by_cases full : s.budget = 0
      · simp only [full, if_true]
        exact full ▸ .overBudget stream kind full
      · simp only [full, if_false]
        exact .opens stream kind full
    · rename_i kind
      split
      · exact .data _ stream kind (by assumption)
      · rename_i absent
        exact .ignores stream (by simpa [Session.Ignores, kind] using absent)
    · rename_i kind
      split
      · rename_i four
        split
        · exact .grants _ stream kind four (by assumption)
        · rename_i absent
          exact .ignores stream (by simpa [Session.Ignores, kind] using .inr absent)
      · rename_i other
        exact .ignores stream (by simpa [Session.Ignores, kind] using .inl other)
    · rename_i kind
      exact .closes stream kind
    · rename_i kind
      exact .ignores stream (by simp [Session.Ignores, kind])

/-- The frame an awaited send of the reader is about. -/
def Reader.replies : Reader → Option Frame
  | .echo => some (.control 0 .data)
  | .refuse id _ => some (.control id .close)
  | _ => none

/-- Everything a step of the link can be, with what it needs and what it does. -/
inductive LinkMove (s : Session) : Session.Act → Session → Prop
  | short (plain) (idle : s.reader = .idle) (bad : Frame.parse plain = none) :
    LinkMove s (.recv plain) { s with reader := .dying }
  | heard (plain frame) (idle : s.reader = .idle) (within : plain.length ≤ maxNoiseMsg - tagLen)
    (parsed : Frame.parse plain = some frame) (did : Heard s frame t) : LinkMove s (.recv plain) t
  | lapse (idle : s.reader = .idle) : LinkMove s .lapse { s with reader := .dying }
  | admits (id) (reading : s.reader = .accepting id) (handled : s.onOpen = true) :
    LinkMove s .advance { s.insert id with reader := .idle }
  | admitsNobody (id) (reading : s.reader = .accepting id) (handled : s.onOpen = false) :
    LinkMove s .advance (({ s.insert id with reader := .idle } : Session).modify s.created fun st =>
      { st with inbox := st.inbox.close })
  | delivers (id stream body) (reading : s.reader = .offer id stream body)
    (opened : (s.arena stream).inbox.isOpen = true) (room : (s.arena stream).inbox.len < inboxFrames) :
    LinkMove s .advance { s.modify stream fun st =>
      { st with inbox := (s.arena stream).inbox.push body } with reader := .idle }
  | drops (id stream body) (reading : s.reader = .offer id stream body)
    (closed : (s.arena stream).inbox.isOpen = false) : LinkMove s .advance { s with reader := .idle }
  | overflows (id stream body) (reading : s.reader = .offer id stream body)
    (opened : (s.arena stream).inbox.isOpen = true) (full : inboxFrames ≤ (s.arena stream).inbox.len) :
    LinkMove s .advance { s with reader := .overflow id stream }
  | evicts (id stream) (reading : s.reader = .overflow id stream) :
    LinkMove s .advance { s.removeAndClose id with reader := .refuse id (some stream) }
  | dies (reading : s.reader = .dying) : LinkMove s .advance { s.clear with reader := .aborting }
  | ends (reading : s.reader = .aborting) : LinkMove s .advance { s with reader := .ended }
  | replies (frame) (reading : s.reader.replies = some frame) (did : s.enqueue frame = some t) :
    LinkMove s .reply { t with reader := .idle }
  | replyFails (frame) (reading : s.reader.replies = some frame) (dead : s.out.isOpen = false) :
    LinkMove s .reply { s with reader := .dying }
  | takeBatch (count) (empty : s.fed = s.out.taken) (live : s.out.isOpen = true) :
    LinkMove s (.takeBatch count) { s with out := s.out.advance count }
  | feed (some : s.fed < s.out.taken) (live : s.out.isOpen = true) :
    LinkMove s .feed { s with fed := s.fed + 1 }
  | writerEnds : LinkMove s .writerEnds { s with out := s.out.close }
  | readerAborted (plain : s.reader = .idle ∨ s.reader.replies.isSome) (told : s.aborted = true) :
    LinkMove s .readerAborted { s with reader := .ended }
  | release (some : 0 < s.limbo) :
    LinkMove s .release { s with limbo := s.limbo - 1, budget := s.budget + 1 }
  | shutdownClear : LinkMove s .shutdownClear { s.clear with shutdowns := s.shutdowns + 1 }
  | shutdownAbort (some : 0 < s.shutdowns) :
    LinkMove s .shutdownAbort { s with shutdowns := s.shutdowns - 1, aborted := true }

private theorem readerSends_move {s t : Session} (reading : s.reader.replies = some frame)
    (sent : s.readerSends frame = some t) : LinkMove s .reply t := by
  unfold Session.readerSends at sent
  split at sent
  · obtain ⟨mid, did, rfl⟩ := Option.map_eq_some_iff.mp sent
    exact .replies frame reading did
  · rename_i dead
    cases sent
    exact .replyFails frame reading (by simpa using dead)

private theorem advance_move {s t : Session} (stepped : s.step .advance = some t) :
    LinkMove s .advance t := by
  simp only [Session.step] at stepped
  split at stepped
  · rename_i id reading
    cases stepped
    cases handled : s.onOpen
    · exact .admitsNobody id reading handled
    · exact .admits id reading handled
  · rename_i id stream body reading
    unfold Channel.trySend at stepped
    by_cases closed : (s.arena stream).inbox.isOpen = false
    · simp only [closed, if_true] at stepped
      cases stepped
      exact .drops id stream body reading closed
    · have opened : (s.arena stream).inbox.isOpen = true := by simpa using closed
      rw [if_neg closed] at stepped
      by_cases full : inboxFrames ≤ (s.arena stream).inbox.len
      · rw [if_pos full] at stepped
        cases stepped
        exact .overflows id stream body reading opened full
      · rw [if_neg full] at stepped
        cases stepped
        exact .delivers id stream body reading opened (by omega)
  · rename_i id stream reading
    cases stepped
    exact .evicts id stream reading
  · rename_i reading
    cases stepped
    exact .dies reading
  · rename_i reading
    cases stepped
    exact .ends reading
  · cases stepped
  · cases stepped
  · cases stepped
  · cases stepped

theorem step_move {s t : Session} (stepped : s.step act = some t) : LinkMove s act t := by
  cases act with
  | recv plain =>
    simp only [Session.step] at stepped
    split at stepped
    · rename_i ready
      split at stepped
      · rename_i bad
        cases stepped
        exact .short plain ready.1 bad
      · rename_i frame parsed
        cases stepped
        exact .heard plain frame ready.1 ready.2 parsed (dispatch_heard s frame)
    · cases stepped
  | lapse =>
    obtain ⟨idle, same⟩ := Option.ite_none_right_eq_some.mp stepped
    cases same
    exact .lapse idle
  | advance => exact advance_move stepped
  | reply =>
    simp only [Session.step] at stepped
    split at stepped
    · rename_i reading
      exact readerSends_move (by simp [Reader.replies, reading]) stepped
    · rename_i reading
      exact readerSends_move (by simp [Reader.replies, reading]) stepped
    · cases stepped
  | takeBatch count =>
    obtain ⟨⟨empty, -, -, live⟩, same⟩ := Option.ite_none_right_eq_some.mp stepped
    cases same
    exact .takeBatch count empty live
  | feed =>
    obtain ⟨⟨some, live⟩, same⟩ := Option.ite_none_right_eq_some.mp stepped
    cases same
    exact .feed some live
  | writerEnds =>
    cases stepped
    exact .writerEnds
  | readerAborted =>
    simp only [Session.step] at stepped
    split at stepped
    · rename_i reading
      obtain ⟨told, same⟩ := Option.ite_none_right_eq_some.mp stepped
      cases same
      exact .readerAborted (.inl reading) told
    · rename_i reading
      obtain ⟨told, same⟩ := Option.ite_none_right_eq_some.mp stepped
      cases same
      exact .readerAborted (.inr (by simp [reading, Reader.replies])) told
    · rename_i reading
      obtain ⟨told, same⟩ := Option.ite_none_right_eq_some.mp stepped
      cases same
      exact .readerAborted (.inr (by simp [reading, Reader.replies])) told
    · cases stepped
  | release =>
    obtain ⟨some, same⟩ := Option.ite_none_right_eq_some.mp stepped
    cases same
    exact .release some
  | shutdownClear =>
    cases stepped
    exact .shutdownClear
  | shutdownAbort =>
    obtain ⟨some, same⟩ := Option.ite_none_right_eq_some.mp stepped
    cases same
    exact .shutdownAbort some

/-- Where a call of `try_open_stream` stands. -/
inductive Opening
  | reserve
  | allocate
  | insert (id : UInt32)
  | announce (stream : Nat)
  /-- OPEN could not be sent. -/
  | giveUp (stream : Nat)
  | refused
  | opened (stream : Nat)
  deriving DecidableEq, Repr

/-- The next uninterrupted piece of `try_open_stream`. -/
def Session.openStep (s : Session) : Opening → Option (Session × Opening)
  | .reserve =>
    match s.reserve with
    | some s => some (s, .allocate)
    | none => some (s, .refused)
  | .allocate => some ({ s with nextId := s.nextId + 1 }, .insert (.ofNat s.nextId))
  | .insert id => some (s.insert id, .announce s.created)
  | .announce stream =>
    s.sends (.control (s.arena stream).id .opening) (.opened stream) (.giveUp stream)
  | .giveUp stream => some ((s.remove (s.arena stream).id).hangUp stream, .refused)
  | .refused | .opened _ => none

/-- Where a call of `StreamTx::send` stands. -/
inductive Sending
  /-- Waiting for credit. -/
  | acquire (rest : Bytes)
  /-- Credit for the chunk is spent; waiting for a place in the outbox. -/
  | queue (chunk rest : Bytes)
  | sent
  | broken
  deriving DecidableEq, Repr

/-- `while !data.is_empty()`. -/
def Sending.next (data : Bytes) : Sending := if data = [] then .sent else .acquire data

/-- What the call has not queued yet. -/
def Sending.rest : Sending → Bytes
  | .acquire rest => rest
  | .queue chunk rest => chunk ++ rest
  | .sent | .broken => []

/-- The next uninterrupted piece of `StreamTx::send`. -/
def Session.sendStep (s : Session) (stream : Nat) : Sending → Option (Session × Sending)
  | .acquire rest =>
    if (s.arena stream).credit.closed then some (s, .broken)
    else
      let take := min rest.length maxPayload
      ((s.arena stream).credit.acquireMany take).map fun credit =>
        (s.modify stream fun st => { st with credit }, .queue (rest.take take) (rest.drop take))
  | .queue chunk rest => s.sends ⟨(s.arena stream).id, .data, chunk⟩ (.next rest) .broken
  | .sent | .broken => none

/-- Everything a piece of `StreamTx::send` can be. -/
inductive SendMove (s : Session) (stream : Nat) : Sending → Session → Sending → Prop
  | spends (rest) (gate : (s.arena stream).credit.closed = false)
    (enough : min rest.length maxPayload ≤ (s.arena stream).credit.permits) :
    SendMove s stream (.acquire rest)
      (s.modify stream fun st => { st with credit :=
        { (s.arena stream).credit with
          permits := (s.arena stream).credit.permits - min rest.length maxPayload } })
      (.queue (rest.take maxPayload) (rest.drop maxPayload))
  | shut (rest) (gate : (s.arena stream).credit.closed = true) :
    SendMove s stream (.acquire rest) s .broken
  | queues (chunk rest) (did : s.enqueue ⟨(s.arena stream).id, .data, chunk⟩ = some t) :
    SendMove s stream (.queue chunk rest) t (.next rest)
  | dead (chunk rest) (gone : s.out.isOpen = false) : SendMove s stream (.queue chunk rest) s .broken

/-- The two outcomes of an awaited send. -/
theorem sends_cases {s t : Session} {ok error res : β}
    (sent : s.sends frame ok error = some (t, res)) :
    (s.enqueue frame = some t ∧ res = ok) ∨ (s.out.isOpen = false ∧ t = s ∧ res = error) := by
  unfold Session.sends at sent
  split at sent
  · obtain ⟨mid, queued, same⟩ := Option.map_eq_some_iff.mp sent
    cases same
    exact .inl ⟨queued, rfl⟩
  · rename_i dead
    cases sent
    exact .inr ⟨by simpa using dead, rfl, rfl⟩

theorem sendStep_move {s t : Session} (stepped : s.sendStep stream stage = some (t, next)) :
    SendMove s stream stage t next := by
  cases stage with
  | acquire rest =>
    simp only [Session.sendStep] at stepped
    split at stepped
    · rename_i gate
      cases stepped
      exact .shut rest gate
    · obtain ⟨credit, got, same⟩ := Option.map_eq_some_iff.mp stepped
      obtain ⟨gate, enough, rfl⟩ := Semaphore.acquireMany_eq_some.mp got
      have taken : rest.take (min rest.length maxPayload) = rest.take maxPayload := by
        rw [Nat.min_comm, ← List.take_take, List.take_length]
      have left : rest.drop (min rest.length maxPayload) = rest.drop maxPayload := by
        by_cases short : rest.length ≤ maxPayload
        · rw [Nat.min_eq_left short, List.drop_length, List.drop_eq_nil_of_le short]
        · rw [Nat.min_eq_right (by omega)]
      rw [taken, left] at same
      cases same
      exact .spends rest gate enough
  | queue chunk rest =>
    obtain ⟨queued, rfl⟩ | ⟨gone, rfl, rfl⟩ := sends_cases stepped
    · exact .queues chunk rest queued
    · exact .dead chunk rest gone
  | sent => cases stepped
  | broken => cases stepped

/-- A frame that gets its place is the last of the outbox, and all else is as
it was. -/
theorem enqueue_eq {s t : Session} (queued : s.enqueue frame = some t) :
    t = { s with out := s.out.push frame } ∧ s.out.isOpen = true ∧ s.out.len < outboxFrames := by
  obtain ⟨⟨live, room⟩, same⟩ := Option.ite_none_right_eq_some.mp queued
  cases same
  exact ⟨rfl, live, room⟩

/-- The next piece of the send fails. -/
def Session.SendFails (s : Session) (stream : Nat) : Sending → Prop
  | .acquire _ => (s.arena stream).credit.closed = true
  | .queue _ _ => s.out.isOpen = false
  | .sent | .broken => False

instance (s : Session) (stream : Nat) : (stage : Sending) → Decidable (s.SendFails stream stage)
  | .acquire _ => inferInstanceAs (Decidable (_ = true))
  | .queue _ _ => inferInstanceAs (Decidable (_ = false))
  | .sent | .broken => isFalse id

theorem sendStep_fails {s s' : Session} (stepped : s.sendStep stream stage = some (s', .broken)) :
    s.SendFails stream stage := by
  cases stage with
  | acquire rest =>
    simp only [Session.sendStep] at stepped
    split at stepped
    · assumption
    · obtain ⟨credit, -, same⟩ := Option.map_eq_some_iff.mp stepped
      cases same
  | queue chunk rest =>
    obtain ⟨-, same⟩ | ⟨dead, -⟩ := sends_cases stepped
    · unfold Sending.next at same
      split at same <;> cases same
    · exact dead
  | sent => cases stepped
  | broken => cases stepped

end DshProxy.Mux

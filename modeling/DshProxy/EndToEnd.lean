import DshProxy.ServeUplink
import DshProxy.WsOutput

/-! Tunnels from end to end: clients behind WebSockets, one `serve_client` each,
and the bridge's link. What the carrier does is no longer free: the tunnel's reads
and writes are the polls of the client's `WsStream`. -/
namespace DshProxy.Ws
open Transitions

/-- What a read has been given is what the reference reads of the bytes that
arrived, but for what is buffered or not decoded yet. -/
def WsStream.Tracks (s : WsStream) (arrived delivered : Bytes) : Prop :=
  ∃ fs, (∀ future, frames (arrived ++ future) =
      (fs ++ (frames (s.undecoded ++ future)).1, (frames (s.undecoded ++ future)).2)) ∧
    delivered ++ s.plain = dataOf fs

variable {s t : WsStream} {arrived delivered : Bytes}

theorem WsStream.Tracks.front (tracks : s.Tracks arrived delivered) (future : Bytes) :
    delivered <+: dataBytes (arrived ++ future) := by
  obtain ⟨fs, read, given⟩ := tracks
  rw [dataBytes, read, dataOf_append, ← given, List.append_assoc]
  exact List.prefix_append _ _

/-- Only what there is to decode and what is buffered matters. -/
theorem WsStream.Tracks.same (tracks : s.Tracks arrived delivered)
    (undecoded : t.undecoded = s.undecoded) (plain : t.plain = s.plain) :
    t.Tracks arrived delivered := by
  unfold WsStream.Tracks
  rw [undecoded, plain]
  exact tracks

theorem WsStream.Tracks.arrive (tracks : s.Tracks arrived delivered) (bytes : Bytes) :
    (s.arrive bytes).Tracks (arrived ++ bytes) delivered := by
  obtain ⟨fs, read, given⟩ := tracks
  refine ⟨fs, fun future => ?_, given⟩
  simpa [WsStream.undecoded, WsStream.arrive, arrivals] using read (bytes ++ future)

/-- A poll that does not fail goes on where the last one stopped. -/
theorem WsStream.Tracks.poll (tracks : s.Tracks arrived delivered)
    (fine : ∀ error, (s.pollRead cx room).2 ≠ .ready (.error error)) :
    (s.pollRead cx room).1.Tracks arrived (delivered ++ polled (s.pollRead cx room).2) := by
  obtain ⟨fs, read, given⟩ := tracks
  obtain ⟨gs, consumed, same⟩ := pollRead_keeps cx room s fine
  refine ⟨fs ++ gs, fun future => ?_, ?_⟩
  · rw [read, consumed.frames, List.append_assoc]
  · rw [List.append_assoc, ← same, ← List.append_assoc, given, dataOf_append]

theorem SameReadSide.undecoded (same : SameReadSide s t) : t.undecoded = s.undecoded := by
  rw [WsStream.undecoded, same.incoming, same.reads, WsStream.undecoded]

/-- `poll_shutdown` reads nothing, and what was read stays. -/
theorem pollShutdown_reads (cx : Half) (settle : Settle) (s : WsStream) :
    (s.pollShutdown cx settle).1.undecoded = s.undecoded ∧
      (s.pollShutdown cx settle).1.plain = s.plain := by
  generalize shape : (if s.closed then s else { s.frame opClose [] with closed := true }) = mid
  have staged : mid.undecoded = s.undecoded ∧ mid.plain = s.plain := by
    subst shape
    split <;> exact ⟨rfl, rfl⟩
  have whole : (s.pollShutdown cx settle).1 = (mid.pollFlush cx settle).1 := by
    simp only [WsStream.pollShutdown, WsStream.pollFlush, shape]
  have flushed := pollFlush_readSide cx settle mid
  rw [whole]
  exact ⟨flushed.undecoded.trans staged.1, flushed.plain.trans staged.2⟩

end DshProxy.Ws

namespace DshProxy.Mux
open Sync Wire Transitions

/-- One client: its WebSocket, every byte that arrived on its socket, and the
bytes that reads of the stream have returned, the preamble first. No read follows
one that has `ended`. -/
structure Client where
  stream : Ws.WsStream := {}
  arrived : Bytes := []
  delivered : Bytes := []
  ended : Bool := false
  deriving DecidableEq, Repr

/-- One poll of a read. No bytes is the end, and so is an error. -/
def Client.read (c : Client) (room : Nat) : Client × Option Bytes :=
  match c.stream.pollRead .reader room with
  | (stream, .ready (.ok [])) | (stream, .ready (.error _)) =>
    ({ c with stream, ended := true }, some [])
  | (stream, .ready (.ok bytes)) =>
    ({ c with stream, delivered := c.delivered ++ bytes }, some bytes)
  | (stream, .pending) => ({ c with stream }, none)

inductive ClientAct
  | arrive (bytes : Bytes)
  | hangUp
  /-- The socket fails a read. -/
  | fail (error : IoError)
  | writable (answers : List Ws.WriteAnswer)
  /-- A poll of `read_exact(&mut head)`. -/
  | preamble
  /-- `PREAMBLE_TIMEOUT` passes. -/
  | timeout
  /-- The preamble is a client's, and its key leads to this link. -/
  | serve
  /-- The uplink polls, with room for so many bytes. -/
  | read (room : Nat)
  /-- The downlink polls `write_all`. -/
  | write
  /-- The downlink polls `shutdown`. -/
  | shutdown (settle : Ws.Settle)
  deriving DecidableEq, Repr

/-- One step at a client's carrier, and the step of its tunnel it comes with. -/
def Client.step (c : Client) (t : Tunnel) : ClientAct → Option (Client × Option TunnelAct)
  | .arrive bytes =>
    if bytes ≠ [] ∧ bytes.length ≤ Ws.scratchLen ∧ c.stream.inner.eof = false then
      some ({ c with stream := c.stream.arrive bytes, arrived := c.arrived ++ bytes }, none)
    else none
  | .hangUp =>
    some ({ c with stream := { c.stream with inner := { c.stream.inner with eof := true } } }, none)
  | .fail error =>
    some ({ c with stream := { c.stream with
      inner := { c.stream.inner with reads := c.stream.inner.reads ++ [.fail error] } } }, none)
  | .writable answers => some ({ c with stream := c.stream.becomesWritable answers }, none)
  | .preamble =>
    if t.phase = .idle ∧ c.ended = false ∧ c.delivered.length < headLen then
      some ((c.read (headLen - c.delivered.length)).1, none)
    else none
  | .timeout =>
    if t.phase = .idle ∧ c.delivered.length < headLen then some ({ c with ended := true }, none)
    else none
  | .serve =>
    if t.phase = .idle ∧ c.ended = false ∧ c.delivered.length = headLen ∧
        c.delivered.take 4 = magicClient ∧ c.delivered.getD 4 0 = version then
      some (c, some (.begin c.delivered))
    else none
  | .read room =>
    if t.uplink = .reading ∧ maxPayload ≤ room then
      match c.read room with
      | (c, some []) => some (c, some .readEnds)
      | (c, some bytes) => some (c, some (.read bytes))
      | (c, none) => some (c, none)
    else none
  | .write =>
    match t.phase, t.downlink with
    | .running, .writing (byte :: rest) _ =>
      match c.stream.pollWrite .writer (byte :: rest) with
      | (stream, .ready (.ok count)) => some ({ c with stream }, some (.write count))
      | (stream, .ready (.error _)) => some ({ c with stream }, some .writeFails)
      | (stream, .pending) => some ({ c with stream }, none)
    | _, _ => none
  | .shutdown settle =>
    match t.phase, t.downlink with
    | .running, .shutting _ =>
      match c.stream.pollShutdown .writer settle with
      | (stream, .ready _) => some ({ c with stream }, some .shutdownDone)
      | (stream, .pending) => some ({ c with stream }, none)
    | _, _ => none

/-- The steps of a tunnel that wait on its carrier. -/
def TunnelAct.onCarrier : TunnelAct → Bool
  | .begin _ | .read _ | .readEnds | .write _ | .writeFails | .shutdownDone => true
  | _ => false

/-- A link with its tunnels and their clients. -/
structure Splice where
  proxy : Proxy
  clients : Nat → Client := fun _ => {}

def Splice.start (maxStreams : Nat) : Splice := { proxy := .start maxStreams }

inductive SpliceAct
  | link (act : Session.Act)
  | tunnel (name : Nat) (act : TunnelAct)
  | client (name : Nat) (act : ClientAct)
  deriving DecidableEq, Repr

/-- Put back a client and, with it, what its tunnel does. -/
def Splice.put (e : Splice) (name : Nat) (c : Client) : Option TunnelAct → Option Splice
  | none => some { e with clients := Function.update e.clients name c }
  | some act => (e.proxy.step (.tunnel name act)).map fun proxy =>
    { proxy, clients := Function.update e.clients name c }

def Splice.step (e : Splice) : SpliceAct → Option Splice
  | .link act => (e.proxy.step (.link act)).map fun proxy => { e with proxy }
  | .tunnel name act =>
    if act.onCarrier then none
    else (e.proxy.step (.tunnel name act)).map fun proxy => { e with proxy }
  | .client name act =>
    ((e.clients name).step (e.proxy.tunnels name) act).bind fun (c, act) => e.put name c act

variable {c c' : Client} {stream after : Ws.WsStream} {t t' : Tunnel} {s s' : Session} {e next : Splice} {name n : Nat}
  {id : UInt32}

/-- What one poll of a read can do. -/
structure Client.Polls (c c' : Client) (got : Option Bytes) : Prop where
  arrived : c'.arrived = c.arrived
  delivered : c'.delivered = c.delivered ++ got.getD []
  goes : got ≠ some [] → c'.ended = c.ended ∧
    (c.stream.Tracks c.arrived c.delivered → c'.stream.Tracks c.arrived c'.delivered)
  ends : got = some [] → c'.ended = true
  stages : ∃ pings, Ws.Stages c.stream c'.stream (Ws.pongFrames pings)

theorem Client.read_polls (c : Client) (room : Nat) : c.Polls (c.read room).1 (c.read room).2 := by
  have stages := Ws.pollRead_stages .reader room c.stream
  have tracks (tracks : c.stream.Tracks c.arrived c.delivered)
      (fine : ∀ error, (c.stream.pollRead .reader room).2 ≠ .ready (.error error)) := tracks.poll fine
  unfold Client.read
  split
  · rename_i stream polled
    rw [polled] at stages
    exact ⟨rfl, by simp, by simp, by simp, _, stages⟩
  · rename_i stream error polled
    rw [polled] at stages
    exact ⟨rfl, by simp, by simp, by simp, _, stages⟩
  · rename_i stream bytes some polled
    rw [polled] at stages tracks
    exact ⟨rfl, rfl, fun _ => ⟨rfl, fun held => tracks held (by simp)⟩,
      fun empty => absurd (Option.some.inj empty) some, _, stages⟩
  · rename_i stream polled
    rw [polled] at stages tracks
    refine ⟨rfl, (List.append_nil _).symm, fun _ => ⟨rfl, fun held => ?_⟩, by simp, _, stages⟩
    simpa [Ws.polled] using tracks held (by simp)

/-- How a client's reads stand to its tunnel. Before the tunnel starts, all that
has been read is preamble. -/
structure Carried (c : Client) (t : Tunnel) : Prop where
  unread : t.phase = .idle → t.reads = []
  text : t.phase ≠ .idle → c.delivered = t.head ++ t.reads
  front : ∀ future, c.delivered <+: Ws.dataBytes (c.arrived ++ future)
  tracks : c.ended = false → c.stream.Tracks c.arrived c.delivered
  ended : c.ended = true → t.phase = .idle ∨ t.uplink = .ended

/-- The downlink writes no more. -/
def Downlink.isOver : Downlink → Bool
  | .shutting _ | .ended _ => true
  | .waiting | .writing _ _ | .granting => false

/-- How a client's output stands to its tunnel: the data frames carry what was
written. A write that failed may have put out more of its chunk than it reported. -/
def Shown (stream : Ws.WsStream) (t : Tunnel) : Prop :=
  ∃ fs, Ws.Stages {} stream fs ∧ (Ws.binaryOf fs = t.writes ∨
    t.downlink.isOver = true ∧ Ws.binaryOf fs <+: t.writes ++ t.downlink.rest)

theorem Carried.start : Carried {} {} := by
  have tracks : ({} : Ws.WsStream).Tracks [] [] :=
    ⟨[], fun _ => rfl, rfl⟩
  exact ⟨fun _ => rfl, fun busy => absurd rfl busy, tracks.front, fun _ => tracks, nofun⟩

theorem Shown.start : Shown {} {} := ⟨[], .same rfl rfl, .inl rfl⟩

/-- A tunnel's own steps keep what passes between it and its carrier. -/
structure Tunnel.Keeps (t t' : Tunnel) : Prop where
  idle : t'.phase = .idle ↔ t.phase = .idle
  head : t'.head = t.head
  reads : t'.reads = t.reads
  writes : t'.writes = t.writes
  uplink : t.uplink = .ended → t'.uplink = .ended
  downlink : t.downlink.isOver = true → t'.downlink.isOver = true ∧ t'.downlink.rest = t.downlink.rest

theorem Move.keeps (move : Move s t act s' t') (fits : t.Fits) (own : act.onCarrier = false) :
    t.Keeps t' := by
  have early := fits.early
  cases move with
  | begin | read | readEnds | write | writeFails | shutdownDone => cases own
  | greeting stage next _ phase =>
    rw [phase] at early
    cases next <;> exact ⟨by simp [Tunnel.greeted, phase], rfl, rfl, rfl, by simp [early.1, Tunnel.greeted],
      fun quiet => ⟨quiet, rfl⟩⟩
  | uplinkSend stage next stream sending =>
    exact ⟨.rfl, rfl, rfl, rfl, by simp [sending], fun quiet => ⟨quiet, rfl⟩⟩
  | recv _ _ _ _ waiting | recvEnds _ _ _ waiting | wrote _ _ _ _ waiting | grant _ _ _ waiting
  | grantFails _ _ _ waiting =>
    exact ⟨.rfl, rfl, rfl, rfl, id, by simp [waiting, Downlink.isOver]⟩
  | reserve phase | refused phase | allocate phase | insert _ phase | announce _ phase
  | announceFails _ phase | giveUp _ phase | rejected _ _ phase | closed _ phase | closeFails _ phase
  | leave _ phase =>
    exact ⟨by simp [phase], rfl, rfl, rfl, id, fun quiet => ⟨quiet, rfl⟩⟩

theorem Carried.keeps (carried : Carried c t) (keeps : t.Keeps t') : Carried c t' := by
  refine ⟨fun idle => ?_, fun busy => ?_, carried.front, carried.tracks, fun ended => ?_⟩
  · rw [keeps.reads, carried.unread (keeps.idle.mp idle)]
  · rw [keeps.head, keeps.reads, carried.text (mt keeps.idle.mpr busy)]
  · exact (carried.ended ended).imp keeps.idle.mpr keeps.uplink

theorem Shown.keeps (shown : Shown stream t) (keeps : t.Keeps t') : Shown stream t' := by
  obtain ⟨fs, stages, all | ⟨quiet, front⟩⟩ := shown
  · exact ⟨fs, stages, .inl (by rw [all, keeps.writes])⟩
  · obtain ⟨still, same⟩ := keeps.downlink quiet
    exact ⟨fs, stages, .inr ⟨still, by rwa [same, keeps.writes]⟩⟩

/-- What a tunnel can have come to with what its carrier tells it. -/
def Tunnel.Follows (t : Tunnel) : Option TunnelAct → Tunnel → Prop
  | none, t' => t' = t
  | some act, t' => ∃ s s', Move s t act s' t'

/-- What a socket does changes neither what there is to read nor what was read. -/
private theorem carried_same (carried : Carried c t) {stream : Ws.WsStream}
    (undecoded : stream.undecoded = c.stream.undecoded) (plain : stream.plain = c.stream.plain) :
    Carried { c with stream } t :=
  ⟨carried.unread, carried.text, carried.front,
    fun going => (carried.tracks going).same undecoded plain, carried.ended⟩

private theorem carried_arrive (carried : Carried c t) (bytes : Bytes) :
    Carried { c with stream := c.stream.arrive bytes, arrived := c.arrived ++ bytes } t := by
  refine ⟨carried.unread, carried.text, fun future => ?_, fun going => ?_, carried.ended⟩
  · rw [List.append_assoc]
    exact carried.front (bytes ++ future)
  · exact (carried.tracks going).arrive bytes

/-- No poll returns what was not there. -/
private theorem polls_front (carried : Carried c t) (going : c.ended = false) (polls : c.Polls c' got)
    (future : Bytes) : c'.delivered <+: Ws.dataBytes (c'.arrived ++ future) := by
  rw [polls.arrived]
  by_cases last : got = some []
  · rw [polls.delivered, last, Option.getD_some, List.append_nil]
    exact carried.front future
  · exact ((polls.goes last).2 (carried.tracks going)).front future

private theorem polls_tracks (carried : Carried c t) (going : c.ended = false) (polls : c.Polls c' got)
    (still : c'.ended = false) : c'.stream.Tracks c'.arrived c'.delivered := by
  rw [polls.arrived]
  refine (polls.goes fun last => ?_).2 (carried.tracks going)
  rw [polls.ends last] at still
  cases still

/-- A poll of the preamble, whatever it brings. -/
private theorem carried_preamble (carried : Carried c t) (idle : t.phase = .idle)
    (going : c.ended = false) (polls : c.Polls c' got) : Carried c' t :=
  ⟨carried.unread, fun busy => absurd idle busy, polls_front carried going polls,
    polls_tracks carried going polls, fun _ => .inl idle⟩

/-- The uplink's reads belong behind the preamble. -/
private theorem reading_busy (fits : t.Fits) (reading : t.uplink = .reading) : t.phase ≠ .idle := by
  intro idle
  have early := fits.early
  rw [idle, reading] at early
  cases early.1

private theorem carried_read (carried : Carried c t) (fits : t.Fits) (reading : t.uplink = .reading)
    (polls : c.Polls c' got) (follows : t.Follows (got.map fun bytes =>
      if bytes = [] then .readEnds else .read bytes) t') : Carried c' t' := by
  have busy := reading_busy fits reading
  have going : c.ended = false := by
    cases ended : c.ended with
    | false => rfl
    | true => exact ((carried.ended ended).elim busy (by simp [reading])).elim
  have front := polls_front carried going polls
  have tracks := polls_tracks carried going polls
  have text := polls.delivered
  rw [carried.text busy, List.append_assoc] at text
  cases got with
  | none =>
    cases follows
    refine ⟨carried.unread, fun _ => text.trans (by simp), front, tracks, fun ended => ?_⟩
    rw [(polls.goes (by simp)).1, going] at ended
    cases ended
  | some bytes =>
    by_cases last : bytes = []
    · subst last
      obtain ⟨s, s', move⟩ := follows
      cases move
      exact ⟨carried.unread, fun _ => text.trans (by simp), front, tracks, fun _ => .inr rfl⟩
    · simp only [Option.map_some, if_neg last] at follows
      obtain ⟨s, s', move⟩ := follows
      cases move
      refine ⟨fun idle => absurd idle busy, fun _ => text, front, tracks, fun ended => ?_⟩
      rw [(polls.goes (by simpa using last)).1, going] at ended
      cases ended

/-- Staging no data shows none. -/
private theorem shown_still (shown : Shown stream t) (stages : Ws.Stages stream after gs)
    (none : Ws.binaryOf gs = []) : Shown after t := by
  obtain ⟨fs, before, writes⟩ := shown
  refine ⟨fs ++ gs, before.trans stages, ?_⟩
  rwa [Ws.binaryOf_append, none, List.append_nil]

private theorem shown_polls (shown : Shown c.stream t) (polls : c.Polls c' got) : Shown c'.stream t := by
  obtain ⟨pings, stages⟩ := polls.stages
  exact shown_still shown stages (Ws.binaryOf_pongFrames pings)

/-- A write before the end shows just what it reports; one that fails may show
more of what it was given. -/
private theorem shown_write (shown : Shown stream t) (writing : t.downlink = .writing rest size)
    (stages : Ws.Stages stream after [⟨Ws.opBinary, rest.take count⟩]) :
    Shown after { t with
      downlink := .writing (rest.drop count) size, writes := t.writes ++ rest.take count } := by
  obtain ⟨fs, before, all | ⟨quiet, -⟩⟩ := shown
  · refine ⟨_, before.trans stages, .inl ?_⟩
    rw [Ws.binaryOf_append, all]
    simp [Ws.binaryOf]
  · rw [writing] at quiet
    cases quiet

private theorem shown_writeFails (shown : Shown stream t) (writing : t.downlink = .writing rest size)
    (stages : Ws.Stages stream after gs)
    (front : ∀ g ∈ gs, gs = [g] ∧ g.opcode = Ws.opBinary ∧ g.payload <+: rest) :
    Shown after { t with downlink := .shutting rest } := by
  obtain ⟨fs, before, all | ⟨quiet, -⟩⟩ := shown
  · refine ⟨_, before.trans stages, .inr ⟨rfl, ?_⟩⟩
    rw [Ws.binaryOf_append, all]
    refine (List.prefix_append_right_inj _).mpr ?_
    cases gs with
    | nil => exact List.nil_prefix
    | cons g more =>
      obtain ⟨single, opcode, within⟩ := front g (by simp)
      rw [single]
      simpa [Ws.binaryOf, opcode, Downlink.rest] using within
  · rw [writing] at quiet
    cases quiet

/-- A change of the downlink is none to the uplink. -/
private theorem carried_downlink (carried : Carried c t) {downlink : Downlink} {writes : Bytes} :
    Carried c { t with downlink, writes } :=
  ⟨carried.unread, carried.text, carried.front, carried.tracks, carried.ended⟩

private theorem carries_read (stepped : c.step t (.read room) = some (c', did)) (follows : t.Follows did t')
    (fits : t.Fits) (carried : Carried c t) (shown : Shown c.stream t) :
    Carried c' t' ∧ Shown c'.stream t' := by
  obtain ⟨⟨reading, -⟩, did⟩ := Option.ite_none_right_eq_some.mp stepped
  have polls := c.read_polls room
  have carries : t.Follows ((c.read room).2.map fun bytes => if bytes = [] then .readEnds else .read bytes) t' →
      Carried (c.read room).1 t' := carried_read carried fits reading polls
  have shows := shown_polls shown polls
  split at did
  · rename_i polled
    cases did
    rw [polled] at carries shows
    refine ⟨carries (by simpa using follows), ?_⟩
    obtain ⟨s, s', move⟩ := follows
    cases move
    exact shows
  · rename_i bytes some polled
    cases did
    rw [polled] at carries shows
    refine ⟨carries (by simpa [show bytes ≠ [] from fun empty => some empty] using follows), ?_⟩
    obtain ⟨s, s', move⟩ := follows
    cases move
    exact shows
  · rename_i polled
    cases did
    rw [polled] at carries shows
    refine ⟨carries follows, ?_⟩
    cases follows
    exact shows

private theorem carries_write (stepped : c.step t .write = some (c', did)) (follows : t.Follows did t')
    (carried : Carried c t) (shown : Shown c.stream t) :
    Carried c' t' ∧ Shown c'.stream t' := by
  simp only [Client.step] at stepped
  split at stepped
  · rename_i byte rest size running writing
    have wrote := Ws.pollWrite_stages .writer (byte :: rest) c.stream
    have side := Ws.pollWrite_readSide .writer (byte :: rest) c.stream
    split at stepped
    · rename_i stream count polled
      cases stepped
      rw [polled] at wrote side
      obtain ⟨same, result, stages⟩ | ⟨error, result, -⟩ | ⟨result, -⟩ := wrote
      · cases result
        obtain ⟨s, s', move⟩ := follows
        cases move with
        | write _ _ rest' size' _ _ writing' =>
          rw [writing] at writing'
          cases writing'
          exact ⟨carried_downlink (carried_same carried side.undecoded side.plain),
            shown_write shown writing stages⟩
      · cases result
      · cases result
    · rename_i stream error polled
      cases stepped
      rw [polled] at wrote side
      obtain ⟨same, result, -⟩ | ⟨error, result, gs, stages, front⟩ | ⟨result, -⟩ := wrote
      · cases result
      · obtain ⟨s, s', move⟩ := follows
        cases move with
        | writeFails _ rest' size' _ _ writing' =>
          rw [writing] at writing'
          cases writing'
          exact ⟨carried_downlink (carried_same carried side.undecoded side.plain),
            shown_writeFails shown writing stages front⟩
      · cases result
    · rename_i stream polled
      cases stepped
      cases follows
      rw [polled] at wrote side
      obtain ⟨same, result, -⟩ | ⟨error, result, -⟩ | ⟨-, stages⟩ := wrote
      · cases result
      · cases result
      · exact ⟨carried_same carried side.undecoded side.plain, shown_still shown stages rfl⟩
  · cases stepped

private theorem carries_shutdown (stepped : c.step t (.shutdown settle) = some (c', did)) (follows : t.Follows did t')
    (carried : Carried c t) (shown : Shown c.stream t) :
    Carried c' t' ∧ Shown c'.stream t' := by
  have reads := Ws.pollShutdown_reads .writer settle c.stream
  have stages := (Ws.pollShutdown_stages .writer settle c.stream).1
  have none : Ws.binaryOf (if c.stream.closed then [] else [⟨Ws.opClose, []⟩]) = [] := by
    split <;> rfl
  simp only [Client.step] at stepped
  split at stepped
  · rename_i unwritten running shutting
    split at stepped
    · rename_i stream result polled
      cases stepped
      rw [polled] at reads stages
      obtain ⟨s, s', move⟩ := follows
      cases move with
      | shutdownDone _ _ shutting' =>
        rw [shutting] at shutting'
        cases shutting'
        refine ⟨carried_downlink (carried_same carried reads.1 reads.2), ?_⟩
        obtain ⟨fs, staged, all | ⟨-, front⟩⟩ := shown_still shown stages none
        · exact ⟨fs, staged, .inl all⟩
        · rw [shutting] at front
          exact ⟨fs, staged, .inr ⟨rfl, front⟩⟩
    · rename_i stream polled
      cases stepped
      cases follows
      rw [polled] at reads stages
      exact ⟨carried_same carried reads.1 reads.2, shown_still shown stages none⟩
  · cases stepped

/-- A step at the carrier, and what the tunnel makes of it. -/
theorem Client.step_carries (stepped : c.step t act = some (c', did)) (follows : t.Follows did t')
    (fits : t.Fits) (carried : Carried c t) (shown : Shown c.stream t) :
    Carried c' t' ∧ Shown c'.stream t' := by
  cases act with
  | arrive bytes =>
    obtain ⟨-, same⟩ := Option.ite_none_right_eq_some.mp stepped
    cases same
    cases follows
    exact ⟨carried_arrive carried bytes, shown_still shown (.same rfl rfl) rfl⟩
  | hangUp =>
    cases stepped
    cases follows
    exact ⟨carried_same carried rfl rfl, shown_still shown (.same rfl rfl) rfl⟩
  | fail error =>
    cases stepped
    cases follows
    refine ⟨carried_same carried ?_ rfl, shown_still shown (.same rfl rfl) rfl⟩
    simp [Ws.WsStream.undecoded, Ws.arrivals]
  | writable answers =>
    cases stepped
    cases follows
    exact ⟨carried_same carried rfl rfl, shown_still shown (.same rfl rfl) rfl⟩
  | preamble =>
    obtain ⟨⟨idle, going, -⟩, same⟩ := Option.ite_none_right_eq_some.mp stepped
    cases same
    cases follows
    have polls := c.read_polls (headLen - c.delivered.length)
    exact ⟨carried_preamble carried idle going polls, shown_polls shown polls⟩
  | timeout =>
    obtain ⟨⟨idle, -⟩, same⟩ := Option.ite_none_right_eq_some.mp stepped
    cases same
    cases follows
    exact ⟨⟨carried.unread, carried.text, carried.front, by simp, fun _ => .inl idle⟩, shown⟩
  | serve =>
    obtain ⟨⟨idle, going, -⟩, same⟩ := Option.ite_none_right_eq_some.mp stepped
    cases same
    obtain ⟨s, s', move⟩ := follows
    cases move
    refine ⟨⟨by simp, fun _ => ?_, carried.front, carried.tracks, fun ended => ?_⟩, shown⟩
    · rw [carried.unread idle, List.append_nil]
    · rw [going] at ended
      cases ended
  | read room => exact carries_read stepped follows fits carried shown
  | write => exact carries_write stepped follows carried shown
  | shutdown settle => exact carries_shutdown stepped follows carried shown

/-- What holds of a link, its tunnels and their clients on every run. -/
structure Splice.Faithful (e : Splice) : Prop where
  proxy : e.proxy.Faithful
  carried : ∀ name, Carried (e.clients name) (e.proxy.tunnels name)
  shown : ∀ name, Shown (e.clients name).stream (e.proxy.tunnels name)

theorem Splice.Faithful.start (maxStreams : Nat) : (Splice.start maxStreams).Faithful :=
  ⟨.start maxStreams, fun _ => .start, fun _ => .start⟩

/-- A client moves with its tunnel and no other does. -/
private theorem faithful_put (faithful : e.Faithful) {proxy : Proxy} (sound : proxy.Faithful)
    (others : ∀ other, other ≠ name → proxy.tunnels other = e.proxy.tunnels other)
    (carried : Carried c (proxy.tunnels name)) (shown : Shown c.stream (proxy.tunnels name)) :
    ({ proxy, clients := Function.update e.clients name c } : Splice).Faithful := by
  have each (other : Nat) :
      Carried (Function.update e.clients name c other) (proxy.tunnels other) ∧
        Shown (Function.update e.clients name c other).stream (proxy.tunnels other) := by
    by_cases here : other = name
    · subst here
      rw [Function.update_self]
      exact ⟨carried, shown⟩
    · rw [Function.update_of_ne here, others other here]
      exact ⟨faithful.carried other, faithful.shown other⟩
  exact ⟨sound, fun other => (each other).1, fun other => (each other).2⟩

theorem Splice.Faithful.step (faithful : e.Faithful) (stepped : e.step act = some next) :
    next.Faithful := by
  cases act with
  | link act =>
    obtain ⟨proxy, did, rfl⟩ := Option.map_eq_some_iff.mp stepped
    refine ⟨faithful.proxy.step did, ?_, ?_⟩
    · obtain ⟨session, -, rfl⟩ := Option.map_eq_some_iff.mp did
      exact faithful.carried
    · obtain ⟨session, -, rfl⟩ := Option.map_eq_some_iff.mp did
      exact faithful.shown
  | tunnel name act =>
    obtain ⟨own, stepped⟩ := Option.ite_none_left_eq_some.mp stepped
    obtain ⟨proxy, did, rfl⟩ := Option.map_eq_some_iff.mp stepped
    have after := faithful.proxy.step did
    obtain ⟨⟨session, tunnel⟩, moved, rfl⟩ := Option.map_eq_some_iff.mp did
    have keeps := (tunnelStep_move moved).keeps (faithful.proxy.sound.fits name) (by simpa using own)
    rw [← Function.update_eq_self name e.clients]
    refine faithful_put faithful after (fun other away => Proxy.put_other _ away _ _) ?_ ?_
    · rw [Proxy.put_self]
      exact (faithful.carried name).keeps keeps
    · rw [Proxy.put_self]
      exact (faithful.shown name).keeps keeps
  | client name act =>
    obtain ⟨⟨c, did⟩, stepped, put⟩ := Option.bind_eq_some_iff.mp stepped
    have carries {t' : Tunnel} (follows : (e.proxy.tunnels name).Follows did t') :=
      Client.step_carries stepped follows (faithful.proxy.sound.fits name) (faithful.carried name)
        (faithful.shown name)
    cases did with
    | none =>
      cases put
      obtain ⟨carried, shown⟩ := carries rfl
      exact faithful_put faithful faithful.proxy (fun _ _ => rfl) carried shown
    | some act =>
      obtain ⟨proxy, did, rfl⟩ := Option.map_eq_some_iff.mp put
      have after := faithful.proxy.step did
      obtain ⟨⟨session, tunnel⟩, moved, rfl⟩ := Option.map_eq_some_iff.mp did
      obtain ⟨carried, shown⟩ := carries ⟨_, _, tunnelStep_move moved⟩
      refine faithful_put faithful after (fun other away => Proxy.put_other _ away _ _) ?_ ?_
      · rwa [Proxy.put_self]
      · rwa [Proxy.put_self]

theorem Splice.Faithful.run {maxStreams : Nat} {acts : List SpliceAct}
    (ran : Transitions.run Splice.step (.start maxStreams) acts = some e) : e.Faithful :=
  run_preserves Splice.Faithful (fun _ _ _ faithful stepped => faithful.step stepped) (.start maxStreams) ran

/-- The tunnel was given this stream id. -/
def Proxy.Given (p : Proxy) (name : Nat) (id : UInt32) : Prop :=
  ∃ n, (p.tunnels name).stream = some n ∧ (p.session.arena n).id = id

/-- What is queued under an id is a front part of what the client behind it has sent. -/
theorem queued_front (faithful : e.Faithful) (uplinks : e.proxy.Uplinks) (given : e.proxy.Given name id) :
    (dataOn id e.proxy.session.out.accepted).flatten <+: Ws.dataBytes (e.clients name).arrived := by
  obtain ⟨n, own, rfl⟩ := given
  have sends := Tunnel.Sends.front (uplinks.sends own)
  have carried := faithful.carried name
  have busy : (e.proxy.tunnels name).phase ≠ .idle := by
    intro idle
    have place := (faithful.proxy.sound.fits name).place
    rw [idle, own] at place
    cases place
  have front := carried.front []
  rw [List.append_nil, carried.text busy] at front
  exact sends.trans front

/-- The way up: what the bridge reads on an id is a front part of what the client
behind it has sent. -/
theorem bridge_reads (faithful : e.Faithful) (uplinks : e.proxy.Uplinks) {transport : Transport}
    (opens : ∀ nonce plain, transport.readMessage nonce (transport.writeMessage nonce plain) = .ok plain)
    {reads : List Bytes} (sent : reads.flatten <+: e.proxy.session.wire transport)
    (given : e.proxy.Given name id) :
    (dataOn id (LinkReader.receive transport reads).frames).flatten <+:
      Ws.dataBytes (e.clients name).arrived :=
  (dataOn_front (bridge_reads_front faithful.proxy.proper opens sent)).trans
    (queued_front faithful uplinks given)

/-- No DATA goes out under an id that no tunnel was given. -/
theorem bridge_reads_given (faithful : e.Faithful) (uplinks : e.proxy.Uplinks)
    {transport : Transport}
    (opens : ∀ nonce plain, transport.readMessage nonce (transport.writeMessage nonce plain) = .ok plain)
    {reads : List Bytes} (sent : reads.flatten <+: e.proxy.session.wire transport) (stream : id ≠ 0)
    (some : dataOn id (LinkReader.receive transport reads).frames ≠ []) :
    ∃ name, e.proxy.Given name id := by
  obtain ⟨payload, member⟩ := List.exists_mem_of_ne_nil _ some
  obtain ⟨frame, read, about⟩ := List.mem_filterMap.mp member
  obtain ⟨⟨same, kind⟩, -⟩ := Option.ite_none_right_eq_some.mp about
  have queued := (bridge_reads_front faithful.proxy.proper opens sent).subset read
  obtain zero | ⟨name, k, own, alike⟩ := uplinks.attributed frame queued kind
  · exact absurd (same.symm.trans zero) stream
  · exact ⟨name, k, own, alike.trans same⟩

/-- The way down: what a client has been shown is a front part of what the reader
heard for its stream. -/
theorem client_reads (faithful : e.Faithful) (own : (e.proxy.tunnels name).stream = some n) :
    (e.proxy.tunnels name).writes <+: (e.proxy.session.heard n).flatten ∧
    ∃ fs, Ws.readOutput ((e.clients name).stream.inner.sent ++ (e.clients name).stream.outgoing) = some fs ∧
      Ws.binaryOf fs <+: (e.proxy.session.heard n).flatten := by
  have sound := faithful.proxy.sound
  have taken : (e.proxy.session.arena n).took.flatten <+: (e.proxy.session.heard n).flatten := by
    obtain ⟨rest, whole⟩ := (List.take_prefix _ _).trans (sound.wired.fed n (sound.known own)).front
    rw [← whole, List.flatten_append]
    exact List.prefix_append _ _
  have front : (e.proxy.tunnels name).writes ++ (e.proxy.tunnels name).downlink.rest <+:
      (e.proxy.session.heard n).flatten := (sound.down own).written ▸ taken
  have writes := (List.prefix_append _ _).trans front
  obtain ⟨fs, stages, shape⟩ := faithful.shown name
  refine ⟨writes, fs, ?_, ?_⟩
  · rw [stages.bytes]
    exact Ws.readOutput_frames stages.staged
  · obtain all | ⟨-, within⟩ := shape
    · rwa [all]
    · exact within.trans front

/-- End to end, with any number of tunnels on one link and their steps in any
order. The client's bytes may come in any frames and any reads, the bridge may
read its link in any pieces. What the bridge reads on a stream id is a front part
of what the one client behind that id has sent, preamble first; what this client
has been sent, as bytes accepted and as data frames on its socket, is a front part
of what `read_loop` read on that id since the stream was inserted. Assumed of the
cipher is that it opens what it has sealed at the same nonce; the counter of opens
starts at one. -/
theorem tunnels_are_faithful {actions : List SpliceAct}
    (ran : run Splice.step (.start maxStreams) actions = some final)
    (unopened : final.proxy.session.Unopened) (few : final.proxy.session.nextId < 2 ^ 32)
    {transport : Transport}
    (opens : ∀ nonce plain, transport.readMessage nonce (transport.writeMessage nonce plain) = .ok plain) :
    (∀ name other id, final.proxy.Given name id → final.proxy.Given other id → name = other) ∧
    (∀ reads, reads.flatten <+: final.proxy.session.wire transport →
      (∀ name id, final.proxy.Given name id →
        (dataOn id (LinkReader.receive transport reads).frames).flatten <+:
          Ws.dataBytes (final.clients name).arrived) ∧
      ∀ id, id ≠ 0 → dataOn id (LinkReader.receive transport reads).frames ≠ [] →
        ∃ name, final.proxy.Given name id) ∧
    ∀ name n, (final.proxy.tunnels name).stream = some n →
      (final.proxy.tunnels name).writes <+: (final.proxy.session.heard n).flatten ∧
      ∃ fs, Ws.readOutput
          ((final.clients name).stream.inner.sent ++ (final.clients name).stream.outgoing) = some fs ∧
        Ws.binaryOf fs <+: (final.proxy.session.heard n).flatten := by
  have faithful : final.Faithful := run_preserves Splice.Faithful
    (fun _ _ _ faithful stepped => faithful.step stepped) (.start maxStreams) ran
  have uplinks := faithful.proxy.uplinks unopened few
  refine ⟨?_, fun reads sent => ⟨fun name id given => ?_, fun id stream some => ?_⟩, fun name n own => ?_⟩
  · rintro name other _ ⟨n, own, rfl⟩ ⟨k, theirs, same⟩
    have sound := faithful.proxy.sound
    have shared := uplinks.ids.apart k n (sound.known theirs) (sound.known own) same
    exact sound.apart own (shared ▸ theirs)
  · exact bridge_reads faithful uplinks opens sent given
  · exact bridge_reads_given faithful uplinks opens sent stream some
  · exact client_reads faithful own

private theorem tagging_length (nonce : Nat) (plain : Bytes) :
    (plain ++ ByteOrder.toBe tagLen nonce).length = plain.length + tagLen := by
  simp

/-- A cipher whose tag is the nonce. -/
def Transport.tagging : Transport where
  writeMessage nonce plain := plain ++ ByteOrder.toBe tagLen nonce
  readMessage nonce box :=
    if box.drop (box.length - tagLen) = ByteOrder.toBe tagLen nonce then .ok (box.take (box.length - tagLen))
    else .error "decrypt error"
  tagged := tagging_length

theorem Transport.tagging_opens (nonce : Nat) (plain : Bytes) :
    tagging.readMessage nonce (tagging.writeMessage nonce plain) = .ok plain := by
  simp [tagging]

/-- The preamble comes in two frames with a ping between them, the second cut
inside its header and with two more bytes behind the preamble; the bridge answers
with one byte. -/
private def cutPreamble : List SpliceAct :=
  [.client 0 (.arrive ([0x82, 0x85, 1, 1, 1, 1, 0x45, 0x52, 0x49, 0x42, 0, 0x89, 0x80, 9, 9, 9, 9] ++ [0x82])),
    .client 0 .preamble, .client 0 .preamble,
    .client 0 (.arrive ([0x80 + 34, 0, 0, 0, 0] ++ List.replicate 32 5 ++ [0x68, 0x69])),
    .client 0 .preamble, .client 0 .serve, .tunnel 0 .proceed, .tunnel 0 .proceed, .tunnel 0 .proceed,
    .tunnel 0 .proceed, .tunnel 0 .proceed, .tunnel 0 .proceed, .client 0 (.read 16384),
    .tunnel 0 .uplinkSend, .tunnel 0 .uplinkSend, .link (.takeBatch 3), .link .feed, .link .feed, .link .feed,
    .link (.recv [0, 0, 0, 1, 1, 0, 1, 0, 7]), .link .advance, .tunnel 0 .recv,
    .client 0 (.writable [.accept 100]), .client 0 .write, .tunnel 0 .wrote]

theorem tunnels_are_faithful_spliced :
    ∃ final, run Splice.step (.start 1) cutPreamble = some final ∧ final.proxy.Given 0 1 ∧
      Ws.dataBytes (final.clients 0).arrived =
        magicClient ++ [version] ++ List.replicate 32 5 ++ [0x68, 0x69] ∧
      final.proxy.session.fed = 3 ∧ (final.proxy.tunnels 0).writes = [7] ∧
      (dataOn 1 (LinkReader.receive .tagging [final.proxy.session.wire .tagging]).frames).flatten <+:
        Ws.dataBytes (final.clients 0).arrived ∧
      (final.proxy.tunnels 0).writes <+: (final.proxy.session.heard 0).flatten := by
  have checked : ((run Splice.step (.start 1) cutPreamble).any fun final => decide (
      (final.proxy.tunnels 0).stream = some 0 ∧ (final.proxy.session.arena 0).id = 1 ∧
      Ws.dataBytes (final.clients 0).arrived =
        magicClient ++ [version] ++ List.replicate 32 5 ++ [0x68, 0x69] ∧
      final.proxy.session.fed = 3 ∧ (final.proxy.tunnels 0).writes = [7] ∧
      final.proxy.session.nextId = 2 ∧ final.proxy.session.log = [⟨1, .data, [7]⟩])) = true := by
    decide +kernel
  obtain ⟨final, ran, facts⟩ := run_reaches checked
  obtain ⟨own, id, arrived, fed, writes, counter, log⟩ := facts
  have unopened : final.proxy.session.Unopened := by
    intro frame member
    rw [log] at member
    rw [List.mem_singleton.mp member]
    simp
  have given : final.proxy.Given 0 1 := ⟨0, own, id⟩
  obtain ⟨-, up, down⟩ :=
    tunnels_are_faithful ran unopened (by rw [counter]; decide) Transport.tagging_opens
  exact ⟨final, ran, given, arrived, fed, writes, (up [_] (by simp)).1 0 1 given, (down 0 0 own).1⟩

end DshProxy.Mux

import DshProxy.MuxInbox

/-! `serve_client`, any number of times over one bridge link. A tunnel is two
tasks on one stream: the caller opens the stream, sends the preamble and then
runs the downlink; the uplink is spawned and lives on its own. The client's
carrier is whatever answers the reads and writes; its answers are the actions
of a tunnel. -/
namespace DshProxy.Mux
open Sync Wire ByteOrder Transitions

/-- Where the spawned uplink task stands. -/
inductive Uplink
  | off
  /-- In `reader.read_buf`. -/
  | reading
  | sending (stage : Sending)
  | ended
  deriving DecidableEq, Repr

/-- The uplink loop around one `tx.send`. -/
def Uplink.after : Sending → Uplink
  | .sent => .reading
  | .broken => .ended
  | stage => .sending stage

/-- Where the downlink stands. -/
inductive Downlink
  /-- In `rx.recv`. -/
  | waiting
  /-- In `writer.write_all`, of a chunk of the given size. -/
  | writing (rest : Bytes) (size : Nat)
  /-- In `tx.grant`. -/
  | granting
  /-- In `writer.shutdown`; what a failed write has left is never written. -/
  | shutting (unwritten : Bytes)
  | ended (unwritten : Bytes)
  deriving DecidableEq, Repr

/-- Bytes taken out of the inbox and not written. -/
def Downlink.rest : Downlink → Bytes
  | .writing rest _ | .shutting rest | .ended rest => rest
  | .waiting | .granting => []

/-- Where the caller of `serve_client` stands. -/
inductive Phase
  | idle
  | opening (stage : Opening)
  /-- In `tx.send(head)`. -/
  | greeting (stage : Sending)
  /-- In `select!`. -/
  | running
  /-- In `tx.close()`, the stream removed. -/
  | closing
  | returned
  deriving DecidableEq, Repr

/-- The caller is about to send OPEN. -/
def Phase.announces : Phase → Bool
  | .opening (.announce _) => true
  | _ => false

/-- The send the caller is in the middle of. -/
def Phase.sends : Phase → Option Sending
  | .greeting stage => some stage
  | _ => none

/-- The send the uplink is in the middle of. -/
def Uplink.sends : Uplink → Option Sending
  | .sending stage => some stage
  | _ => none

/-- One `serve_client`. `reads`, `writes` and `granted` record what has gone
through it: the bytes the uplink has read, those the carrier has accepted, and
the credit given back. -/
structure Tunnel where
  head : Bytes := []
  phase : Phase := .idle
  stream : Option Nat := none
  uplink : Uplink := .off
  downlink : Downlink := .waiting
  pending : Nat := 0
  reads : Bytes := []
  writes : Bytes := []
  granted : Nat := 0
  deriving DecidableEq, Repr

/-- After a piece of `try_open_stream`. -/
def Tunnel.opened (t : Tunnel) : Opening → Tunnel
  | .announce stream => { t with phase := .opening (.announce stream), stream := some stream }
  | .opened _ => { t with phase := .greeting (.next t.head) }
  | .refused => { t with phase := .returned }
  | stage => { t with phase := .opening stage }

/-- After a piece of `tx.send(head)`: the split and the uplink's spawn, or `?`. -/
def Tunnel.greeted (t : Tunnel) : Sending → Tunnel
  | .sent => { t with phase := .running, uplink := .reading }
  | .broken => { t with phase := .returned }
  | stage => { t with phase := .greeting stage }

inductive TunnelAct
  | begin (head : Bytes)
  /-- The next piece of the open, of `tx.send(head)` or of `tx.close()`. -/
  | proceed
  | read (bytes : Bytes)
  /-- `read_buf` returns 0 or an error. -/
  | readEnds
  | uplinkSend
  | recv
  /-- `rx.recv` returns `None`. -/
  | recvEnds
  /-- The carrier accepts some bytes of the chunk. -/
  | write (count : Nat)
  | writeFails
  /-- `write_all` returns. -/
  | wrote
  | grant
  | shutdownDone
  /-- `select!` returns, and `tx.close()` removes the stream. -/
  | leave
  deriving DecidableEq, Repr

/-- Someone can still put a chunk into the stream's inbox. -/
def Session.Feeds (s : Session) (stream : Nat) : Prop :=
  s.streams (s.arena stream).id = some stream ∨ s.reader.holds = some stream

instance (s : Session) (stream : Nat) : Decidable (s.Feeds stream) :=
  inferInstanceAs (Decidable (_ ∨ _))

/-- The caller's next piece in the phases before and after `select!`. -/
def Session.callerStep (s : Session) (t : Tunnel) : Option (Session × Tunnel) :=
  match t.phase, t.stream with
  | .opening stage, _ => (s.openStep stage).map fun (s, stage) => (s, t.opened stage)
  | .greeting stage, some stream =>
    (s.sendStep stream stage).map fun (s, stage) =>
      -- `?` drops the receive half.
      (if stage = .broken then s.hangUp stream else s, t.greeted stage)
  | .closing, some stream =>
    (s.sends (.control (s.arena stream).id .close) () ()).map fun (s, _) =>
      (s.hangUp stream, { t with phase := .returned })
  | _, _ => none

/-- One step of the spawned uplink task. -/
def Session.uplinkStep (s : Session) (t : Tunnel) : TunnelAct → Option (Session × Tunnel)
  | .read bytes =>
    if t.uplink = .reading ∧ bytes ≠ [] then
      some (s, { t with uplink := .sending (.next bytes), reads := t.reads ++ bytes })
    else none
  | .readEnds => if t.uplink = .reading then some (s, { t with uplink := .ended }) else none
  | .uplinkSend =>
    match t.uplink, t.stream with
    | .sending stage, some stream =>
      (s.sendStep stream stage).map fun (s, stage) => (s, { t with uplink := .after stage })
    | _, _ => none
  | _ => none

/-- One step of the downlink on its stream. -/
def Session.downlinkStep (s : Session) (t : Tunnel) (stream : Nat) :
    TunnelAct → Option (Session × Tunnel)
  | .recv =>
    if t.downlink = .waiting then
      (s.take stream).map fun (chunk, s) => (s, { t with downlink := .writing chunk chunk.length })
    else none
  | .recvEnds =>
    if t.downlink = .waiting ∧ (s.arena stream).inbox.queue = [] ∧ ¬ s.Feeds stream then
      some (s, { t with downlink := .shutting [] })
    else none
  | .write count =>
    match t.downlink with
    | .writing rest size =>
      if 0 < count ∧ count ≤ rest.length then
        some (s, { t with
          downlink := .writing (rest.drop count) size
          writes := t.writes ++ rest.take count })
      else none
    | _ => none
  | .writeFails =>
    match t.downlink with
    | .writing rest _ => some (s, { t with downlink := .shutting rest })
    | _ => none
  | .wrote =>
    match t.downlink with
    | .writing [] size =>
      let pending := (t.pending + size) % 2 ^ 32
      some (s, { t with
        pending
        downlink := if grantThreshold ≤ pending then .granting else .waiting })
    | _ => none
  | .grant =>
    if t.downlink = .granting then
      s.sends (.grant (s.arena stream).id t.pending)
        { t with downlink := .waiting, pending := 0, granted := t.granted + t.pending }
        { t with downlink := .shutting [] }
    else none
  | .shutdownDone =>
    match t.downlink with
    | .shutting unwritten => some (s, { t with downlink := .ended unwritten })
    | _ => none
  | _ => none

/-- The downlink has returned. -/
def Downlink.isEnded : Downlink → Bool
  | .ended _ => true
  | _ => false

def Session.tunnelStep (s : Session) (t : Tunnel) (act : TunnelAct) : Option (Session × Tunnel) :=
  match act with
  | .begin head =>
    if t.phase = .idle ∧ head.length = headLen then
      some (s, { t with head, phase := .opening .reserve })
    else none
  | .proceed => s.callerStep t
  | .read _ | .readEnds | .uplinkSend => s.uplinkStep t act
  | .leave =>
    match t.phase, t.stream with
    | .running, some stream =>
      if t.uplink = .ended ∨ t.downlink.isEnded then
        some (s.remove (s.arena stream).id, { t with phase := .closing })
      else none
    | _, _ => none
  | act =>
    match t.phase, t.stream with
    | .running, some stream => s.downlinkStep t stream act
    | _, _ => none

/-- Everything a step of a tunnel can be, with what it needs and what it does. -/
inductive Move (s : Session) (t : Tunnel) : TunnelAct → Session → Tunnel → Prop
  | begin (head) (idle : t.phase = .idle) (whole : head.length = headLen) :
    Move s t (.begin head) s { t with head, phase := .opening .reserve }
  | reserve (phase : t.phase = .opening .reserve) (did : s.reserve = some s') :
    Move s t .proceed s' { t with phase := .opening .allocate }
  | refused (phase : t.phase = .opening .reserve) :
    Move s t .proceed s { t with phase := .returned }
  | allocate (phase : t.phase = .opening .allocate) :
    Move s t .proceed { s with nextId := s.nextId + 1 }
      { t with phase := .opening (.insert (.ofNat s.nextId)) }
  | insert (id) (phase : t.phase = .opening (.insert id)) :
    Move s t .proceed (s.insert id) { t with
      phase := .opening (.announce s.created), stream := some s.created }
  | announce (stream) (phase : t.phase = .opening (.announce stream))
    (did : s.enqueue (.control (s.arena stream).id .opening) = some s') :
    Move s t .proceed s' { t with phase := .greeting (.next t.head) }
  | announceFails (stream) (phase : t.phase = .opening (.announce stream))
    (dead : s.out.isOpen = false) :
    Move s t .proceed s { t with phase := .opening (.giveUp stream) }
  | giveUp (stream) (phase : t.phase = .opening (.giveUp stream)) :
    Move s t .proceed ((s.remove (s.arena stream).id).hangUp stream) { t with phase := .returned }
  | greeting (stage next stream) (phase : t.phase = .greeting stage) (own : t.stream = some stream)
    (did : s.sendStep stream stage = some (s', next)) (kept : next ≠ .broken) :
    Move s t .proceed s' (t.greeted next)
  | rejected (stage stream) (phase : t.phase = .greeting stage) (own : t.stream = some stream)
    (did : s.sendStep stream stage = some (s', .broken)) :
    Move s t .proceed (s'.hangUp stream) { t with phase := .returned }
  | closed (stream) (phase : t.phase = .closing) (own : t.stream = some stream)
    (did : s.enqueue (.control (s.arena stream).id .close) = some s') :
    Move s t .proceed (s'.hangUp stream) { t with phase := .returned }
  | closeFails (stream) (phase : t.phase = .closing) (own : t.stream = some stream)
    (dead : s.out.isOpen = false) :
    Move s t .proceed (s.hangUp stream) { t with phase := .returned }
  | read (bytes) (reading : t.uplink = .reading) (some : bytes ≠ []) :
    Move s t (.read bytes) s { t with uplink := .sending (.next bytes), reads := t.reads ++ bytes }
  | readEnds (reading : t.uplink = .reading) : Move s t .readEnds s { t with uplink := .ended }
  | uplinkSend (stage next stream) (sending : t.uplink = .sending stage) (own : t.stream = some stream)
    (did : s.sendStep stream stage = some (s', next)) :
    Move s t .uplinkSend s' { t with uplink := .after next }
  | recv (stream chunk) (running : t.phase = .running) (own : t.stream = some stream)
    (waiting : t.downlink = .waiting) (did : s.take stream = some (chunk, s')) :
    Move s t .recv s' { t with downlink := .writing chunk chunk.length }
  | recvEnds (stream) (running : t.phase = .running) (own : t.stream = some stream)
    (waiting : t.downlink = .waiting) (drained : (s.arena stream).inbox.queue = [])
    (finished : ¬ s.Feeds stream) : Move s t .recvEnds s { t with downlink := .shutting [] }
  | write (stream count rest size) (running : t.phase = .running) (own : t.stream = some stream)
    (writing : t.downlink = .writing rest size) (some : 0 < count) (within : count ≤ rest.length) :
    Move s t (.write count) s { t with
      downlink := .writing (rest.drop count) size, writes := t.writes ++ rest.take count }
  | writeFails (stream rest size) (running : t.phase = .running) (own : t.stream = some stream)
    (writing : t.downlink = .writing rest size) :
    Move s t .writeFails s { t with downlink := .shutting rest }
  | wrote (stream size) (running : t.phase = .running) (own : t.stream = some stream)
    (writing : t.downlink = .writing [] size) :
    Move s t .wrote s { t with
      pending := (t.pending + size) % 2 ^ 32
      downlink := if grantThreshold ≤ (t.pending + size) % 2 ^ 32 then .granting else .waiting }
  | grant (stream) (running : t.phase = .running) (own : t.stream = some stream)
    (granting : t.downlink = .granting)
    (did : s.enqueue (.grant (s.arena stream).id t.pending) = some s') :
    Move s t .grant s' { t with
      downlink := .waiting, pending := 0, granted := t.granted + t.pending }
  | grantFails (stream) (running : t.phase = .running) (own : t.stream = some stream)
    (granting : t.downlink = .granting) (dead : s.out.isOpen = false) :
    Move s t .grant s { t with downlink := .shutting [] }
  | shutdownDone (unwritten) (running : t.phase = .running)
    (shutting : t.downlink = .shutting unwritten) :
    Move s t .shutdownDone s { t with downlink := .ended unwritten }
  | leave (stream) (running : t.phase = .running) (own : t.stream = some stream)
    (finished : t.uplink = .ended ∨ t.downlink.isEnded = true) :
    Move s t .leave (s.remove (s.arena stream).id) { t with phase := .closing }

private theorem opening_move {s s' : Session} {t : Tunnel} (phase : t.phase = .opening stage)
    (did : s.openStep stage = some (s', next)) : Move s t .proceed s' (t.opened next) := by
  cases stage with
  | reserve =>
    simp only [Session.openStep] at did
    split at did
    · rename_i reserved
      cases did
      exact .reserve phase reserved
    · cases did
      exact .refused phase
  | allocate =>
    cases did
    exact .allocate phase
  | insert id =>
    cases did
    exact .insert id phase
  | announce stream =>
    obtain ⟨queued, rfl⟩ | ⟨dead, rfl, rfl⟩ := sends_cases did
    · exact .announce stream phase queued
    · exact .announceFails stream phase dead
  | giveUp stream =>
    cases did
    exact .giveUp stream phase
  | refused => cases did
  | opened stream => cases did

private theorem callerStep_move {s s' : Session} {t t' : Tunnel}
    (stepped : s.callerStep t = some (s', t')) : Move s t .proceed s' t' := by
  unfold Session.callerStep at stepped
  split at stepped
  · rename_i stage phase
    obtain ⟨⟨mid, next⟩, did, same⟩ := Option.map_eq_some_iff.mp stepped
    cases same
    exact opening_move phase did
  · rename_i stage stream phase own
    obtain ⟨⟨mid, next⟩, did, same⟩ := Option.map_eq_some_iff.mp stepped
    by_cases broken : next = .broken
    · subst broken
      cases same
      exact .rejected stage stream phase own did
    · dsimp only at same
      rw [if_neg broken] at same
      cases same
      exact .greeting stage next stream phase own did broken
  · rename_i stream phase own
    obtain ⟨⟨mid, ⟨⟩⟩, did, same⟩ := Option.map_eq_some_iff.mp stepped
    cases same
    obtain ⟨queued, -⟩ | ⟨dead, rfl, -⟩ := sends_cases did
    · exact .closed stream phase own queued
    · exact .closeFails stream phase own dead
  · cases stepped

private theorem uplinkStep_move {s s' : Session} {t t' : Tunnel}
    (stepped : s.uplinkStep t act = some (s', t')) : Move s t act s' t' := by
  unfold Session.uplinkStep at stepped
  split at stepped
  · obtain ⟨⟨reading, some⟩, same⟩ := Option.ite_none_right_eq_some.mp stepped
    cases same
    exact .read _ reading some
  · obtain ⟨reading, same⟩ := Option.ite_none_right_eq_some.mp stepped
    cases same
    exact .readEnds reading
  · split at stepped
    · rename_i stage stream sending own
      obtain ⟨⟨mid, next⟩, did, same⟩ := Option.map_eq_some_iff.mp stepped
      cases same
      exact .uplinkSend stage next stream sending own did
    · cases stepped
  · cases stepped

private theorem downlinkStep_move {s s' : Session} {t t' : Tunnel} {stream : Nat}
    (running : t.phase = .running) (own : t.stream = some stream)
    (stepped : s.downlinkStep t stream act = some (s', t')) : Move s t act s' t' := by
  unfold Session.downlinkStep at stepped
  split at stepped
  · obtain ⟨waiting, got⟩ := Option.ite_none_right_eq_some.mp stepped
    obtain ⟨⟨chunk, mid⟩, did, same⟩ := Option.map_eq_some_iff.mp got
    cases same
    exact .recv stream chunk running own waiting did
  · obtain ⟨⟨waiting, drained, finished⟩, same⟩ := Option.ite_none_right_eq_some.mp stepped
    cases same
    exact .recvEnds stream running own waiting drained finished
  · split at stepped
    · rename_i rest size writing
      obtain ⟨⟨some, within⟩, same⟩ := Option.ite_none_right_eq_some.mp stepped
      cases same
      exact .write stream _ rest size running own writing some within
    · cases stepped
  · split at stepped
    · rename_i rest size writing
      cases stepped
      exact .writeFails stream rest size running own writing
    · cases stepped
  · split at stepped
    · rename_i size writing
      cases stepped
      exact .wrote stream size running own writing
    · cases stepped
  · obtain ⟨granting, got⟩ := Option.ite_none_right_eq_some.mp stepped
    obtain ⟨queued, rfl⟩ | ⟨dead, rfl, rfl⟩ := sends_cases got
    · exact .grant stream running own granting queued
    · exact .grantFails stream running own granting dead
  · split at stepped
    · rename_i unwritten shutting
      cases stepped
      exact .shutdownDone unwritten running shutting
    · cases stepped
  · cases stepped

theorem tunnelStep_move {s s' : Session} {t t' : Tunnel}
    (stepped : s.tunnelStep t act = some (s', t')) : Move s t act s' t' := by
  unfold Session.tunnelStep at stepped
  split at stepped
  · obtain ⟨⟨idle, whole⟩, same⟩ := Option.ite_none_right_eq_some.mp stepped
    cases same
    exact .begin _ idle whole
  · exact callerStep_move stepped
  · exact uplinkStep_move stepped
  · exact uplinkStep_move stepped
  · exact uplinkStep_move stepped
  · split at stepped
    · rename_i stream running own
      obtain ⟨finished, same⟩ := Option.ite_none_right_eq_some.mp stepped
      cases same
      exact .leave stream running own finished
    · cases stepped
  · split at stepped
    · rename_i stream running own
      exact downlinkStep_move running own stepped
    · cases stepped

/-- How a tunnel's phase, stream and two tasks go together. -/
structure Tunnel.Fits (t : Tunnel) : Prop where
  /-- Without a stream nothing has been done. -/
  blank : t.stream = none → t = { head := t.head, phase := t.phase }
  place :
    match t.phase with
    | .idle | .opening .reserve | .opening .allocate | .opening (.insert _) => t.stream = none
    | .opening (.announce stream) | .opening (.giveUp stream) => t.stream = some stream
    | .greeting _ | .running | .closing => t.stream ≠ none
    | .opening _ | .returned => True
  /-- Both directions start with `select!`. -/
  early :
    match t.phase with
    | .idle | .opening _ | .greeting _ => t.uplink = .off ∧ t.downlink = .waiting
    | .running | .closing => t.uplink ≠ .off
    | .returned => True

/-- Both directions keep to themselves: a change of the uplink once it runs. -/
private theorem fits_uplink {t : Tunnel} (fits : t.Fits) (running : t.uplink ≠ .off)
    {next : Uplink} (still : next ≠ .off) (reads : Bytes) :
    ({ t with uplink := next, reads } : Tunnel).Fits := by
  refine ⟨fun free => ?_, fits.place, ?_⟩
  · have nothing := congrArg Tunnel.uplink (fits.blank free)
    exact absurd nothing running
  · have early := fits.early
    dsimp only
    split at early
    · exact absurd early.1 running
    · exact absurd early.1 running
    · exact absurd early.1 running
    · exact still
    · exact still
    · trivial

/-- A change of the downlink inside `select!`. -/
private theorem fits_downlink {t : Tunnel} (fits : t.Fits) (running : t.phase = .running)
    (downlink : Downlink) (pending : Nat) (writes : Bytes) (granted : Nat) :
    ({ t with downlink, pending, writes, granted } : Tunnel).Fits := by
  have place := fits.place
  have early := fits.early
  rw [running] at place early
  refine ⟨fun free => absurd free place, ?_, ?_⟩
  · dsimp only
    rw [running]
    exact place
  · dsimp only
    rw [running]
    exact early

theorem Move.fits {s s' : Session} {t t' : Tunnel} (move : Move s t act s' t') (fits : t.Fits) :
    t'.Fits := by
  have blank := fits.blank
  have place := fits.place
  have early := fits.early
  have served {stream : Nat} (own : t.stream = some stream) : t.stream ≠ none := by simp [own]
  cases move with
  | begin head idle =>
    rw [idle] at place early
    exact ⟨fun free => by rw [blank free], place, early⟩
  | reserve phase =>
    rw [phase] at place early
    exact ⟨fun free => by rw [blank free], place, early⟩
  | refused phase => exact ⟨fun free => by rw [blank free], trivial, trivial⟩
  | allocate phase =>
    rw [phase] at place early
    exact ⟨fun free => by rw [blank free], place, early⟩
  | insert id phase =>
    rw [phase] at place early
    exact ⟨by simp, rfl, early⟩
  | announce stream phase =>
    rw [phase] at place early
    exact ⟨fun free => absurd free (served place), served place, early⟩
  | announceFails stream phase =>
    rw [phase] at place early
    exact ⟨fun free => absurd free (served place), place, early⟩
  | giveUp stream phase =>
    rw [phase] at place
    exact ⟨fun free => absurd free (served place), trivial, trivial⟩
  | greeting stage next stream phase own =>
    rw [phase] at early
    have kept : (t.greeted next).stream ≠ none := by cases next <;> exact served own
    refine ⟨fun free => absurd free kept, ?_, ?_⟩
    · cases next <;> first
        | exact served own
        | trivial
    · cases next <;> first
        | exact early
        | simp [Tunnel.greeted]
  | rejected stage stream phase own => exact ⟨fun free => absurd free (served own), trivial, trivial⟩
  | closed stream phase own => exact ⟨fun free => absurd free (served own), trivial, trivial⟩
  | closeFails stream phase own => exact ⟨fun free => absurd free (served own), trivial, trivial⟩
  | read bytes reading => exact fits_uplink fits (by simp [reading]) (by simp) _
  | readEnds reading => exact fits_uplink fits (by simp [reading]) (by simp) _
  | uplinkSend stage next stream sending =>
    refine fits_uplink fits (by simp [sending]) ?_ _
    cases next <;> simp [Uplink.after]
  | recv stream chunk running => exact fits_downlink fits running _ _ _ _
  | recvEnds stream running => exact fits_downlink fits running _ _ _ _
  | write stream count rest size running => exact fits_downlink fits running _ _ _ _
  | writeFails stream rest size running => exact fits_downlink fits running _ _ _ _
  | wrote stream size running => exact fits_downlink fits running _ _ _ _
  | grant stream running => exact fits_downlink fits running _ _ _ _
  | grantFails stream running => exact fits_downlink fits running _ _ _ _
  | shutdownDone unwritten running => exact fits_downlink fits running _ _ _ _
  | leave stream running own =>
    rw [running] at early
    exact ⟨fun free => absurd free (served own), served own, early⟩

/-- One bridge link and every `serve_client` on it. -/
structure Proxy where
  session : Session
  tunnels : Nat → Tunnel := fun _ => {}

inductive ProxyAct
  | link (act : Session.Act)
  | tunnel (name : Nat) (act : TunnelAct)
  deriving DecidableEq, Repr

/-- A link on which nothing has happened; production registers no handler for
streams the bridge opens. -/
def Proxy.start (maxStreams : Nat) : Proxy := { session := .start maxStreams false }

/-- After a step of one tunnel. -/
def Proxy.put (p : Proxy) (name : Nat) (session : Session) (tunnel : Tunnel) : Proxy :=
  { session, tunnels := Function.update p.tunnels name tunnel }

@[simp] theorem Proxy.put_session (p : Proxy) (name : Nat) (session : Session) (tunnel : Tunnel) :
    (p.put name session tunnel).session = session := rfl

@[simp] theorem Proxy.put_self (p : Proxy) (name : Nat) (session : Session) (tunnel : Tunnel) :
    (p.put name session tunnel).tunnels name = tunnel := Function.update_self _ _ _

@[simp] theorem Proxy.put_other (p : Proxy) {name other : Nat} (away : other ≠ name)
    (session : Session) (tunnel : Tunnel) :
    (p.put name session tunnel).tunnels other = p.tunnels other := Function.update_of_ne away _ _

def Proxy.step (p : Proxy) : ProxyAct → Option Proxy
  | .link act => (p.session.step act).map fun session => { p with session }
  | .tunnel name act =>
    (p.session.tunnelStep (p.tunnels name) act).map fun (session, tunnel) =>
      p.put name session tunnel

end DshProxy.Mux

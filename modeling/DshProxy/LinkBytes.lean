import DshProxy.EndToEnd
import DshProxy.MuxHistory
import DshProxy.NoiseCodec
import DshProxy.Simulation

/-! What joins two sessions, down to the bytes. A writer feeds its frames through
`NoiseEncoder` into the buffer of a `FramedWrite`; the buffer goes onto the socket in
pieces, when it has grown over a bound and after each batch; the socket is read in
pieces into the buffer of a `FramedRead`, and `NoiseDecoder` takes records out of it.
As long as nobody touches the bytes, none of this can be seen: a link of frames,
delivered in order, is what both ends have. -/
namespace DshProxy.Mux
open Sync Wire Transitions

/-- From so many bytes on `FramedWrite` wants its buffer flushed before it takes
another frame: the default of `tokio_util`. -/
def backpressureBoundary : Nat := 8192

/-- One direction of a link: the sender's `FramedWrite`, what is on the socket, and
the receiver's `FramedRead`. -/
structure Cable where
  encoder : NoiseEncoder := {}
  staged : Bytes := []
  flight : Bytes := []
  decoder : NoiseDecoder := {}
  buffered : Bytes := []

namespace Cable
variable (transport : Transport) (c : Cable)

/-- `writer.feed(frame)`, once the buffer is below the bound; the flag says whether
the encoder has taken the frame. -/
def feed (frame : Frame) : Option (Cable × Bool) :=
  if c.staged.length < backpressureBoundary then
    match c.encoder.encode transport frame c.staged with
    | ((encoder, staged), .ok ()) => some ({ c with encoder, staged }, true)
    | ((encoder, staged), .error _) => some ({ c with encoder, staged }, false)
  else none

/-- The socket takes bytes of a buffer that is being flushed. -/
def write (count : Nat) : Option Cable :=
  if 0 < count ∧ count ≤ c.staged.length then
    some { c with staged := c.staged.drop count, flight := c.flight ++ c.staged.take count }
  else none

/-- The socket has bytes for a reader. -/
def arrive (count : Nat) : Option Cable :=
  if 0 < count ∧ count ≤ c.flight.length then
    some { c with flight := c.flight.drop count, buffered := c.buffered ++ c.flight.take count }
  else none

/-- `reader.next()` on what is buffered: a record, or an error, which is the last the
reader gets; `none` waits for more. -/
def next : Option (Cable × Option Bytes) :=
  match c.decoder.decode transport c.buffered with
  | (_, .ok none) => none
  | ((decoder, buffered), .ok (some plain)) => some ({ c with decoder, buffered }, some plain)
  | ((decoder, buffered), .error _) => some ({ c with decoder, buffered }, none)

end Cable

/-- The writer is flushing: in `feed`, over the bound, or behind its batch. -/
def Session.Flushes (s : Session) (c : Cable) : Prop :=
  s.fed = s.out.taken ∨ backpressureBoundary ≤ c.staged.length

instance (s : Session) (c : Cable) : Decidable (s.Flushes c) := inferInstanceAs (Decidable (_ ∨ _))

/-- A step of a session's two tasks with the cable its writer feeds. `recv_many` waits
for the flush behind the last batch, and a frame that the encoder refuses is the
writer's last. -/
def Session.onCable (s : Session) (transport : Transport) (c : Cable) : Session.Act → Option (Cable × Session)
  | .takeBatch count =>
    if c.staged = [] then (s.step (.takeBatch count)).map (c, ·) else none
  | .feed => (s.out.accepted[s.fed]?).bind fun frame => (c.feed transport frame).bind fun (c, took) =>
    (s.step (if took then .feed else .writerEnds)).map (c, ·)
  | act => if act.isLive then (s.step act).map (c, ·) else none

/-- A session's reader at the end of a cable. -/
def Session.atCable (s : Session) (transport : Transport) (c : Cable) : Option (Cable × Session) :=
  if s.reader = .idle then (c.next transport).bind fun (c, got) =>
    (s.step (match got with
      | some plain => .recv plain
      | none => .lapse)).map (c, ·)
  else none

/-- Two sessions and the two directions of the link between them. -/
structure LinkPair where
  near : Proxy
  far : Acceptor
  up : Cable := {}
  down : Cable := {}

inductive LinkAct
  | near (act : ProxyAct)
  | far (act : AcceptorAct)
  /-- The near end's writer gets bytes onto the socket. -/
  | nearWrites (count : Nat)
  | farWrites (count : Nat)
  /-- The near end's reader, waiting in `reader.next()`, gets bytes off it. -/
  | nearReads (count : Nat)
  | farReads (count : Nat)
  | nearHears
  | farHears
  deriving DecidableEq, Repr

/-- A step over the ciphers of the two directions. -/
def LinkPair.step (up down : Transport) (l : LinkPair) : LinkAct → Option LinkPair
  | .near (.link act) => (l.near.session.onCable up l.up act).map fun (up, session) =>
    { l with up, near := { l.near with session } }
  | .near (.tunnel name act) => (l.near.step (.tunnel name act)).map fun near => { l with near }
  | .far (.link act) => (l.far.session.onCable down l.down act).map fun (down, session) =>
    { l with down, far := { l.far with session } }
  | .far act => (l.far.step act).map fun far => { l with far }
  | .nearWrites count =>
    if l.near.session.Flushes l.up then (l.up.write count).map fun up => { l with up } else none
  | .farWrites count =>
    if l.far.session.Flushes l.down then (l.down.write count).map fun down => { l with down } else none
  | .nearReads count =>
    if l.near.session.reader = .idle ∧ (l.down.next down).isNone then
      (l.down.arrive count).map fun down => { l with down }
    else none
  | .farReads count =>
    if l.far.session.reader = .idle ∧ (l.up.next up).isNone then
      (l.up.arrive count).map fun up => { l with up }
    else none
  | .nearHears => (l.near.session.atCable down l.down).map fun (down, session) =>
    { l with down, near := { l.near with session } }
  | .farHears => (l.far.session.atCable up l.up).map fun (up, session) =>
    { l with up, far := { l.far with session } }

def LinkPair.start (nearStreams farStreams : Nat) : LinkPair :=
  { near := .start nearStreams, far := { session := .start farStreams true } }

/-- What a receiver has not read yet of what a sender has put on the link. -/
def Session.unread (sender receiver : Session) : List Frame :=
  (sender.out.accepted.take sender.fed).drop receiver.log.length

/-- What is in a cable. Both nonces count frames, and the bytes between writer and
reader are the records of the frames between them: nothing is lost, doubled or
overtaken. -/
structure Cable.Conveys (transport : Transport) (c : Cable) (sender receiver : Session) : Prop where
  sealed : c.encoder.nonce = sender.fed % 2 ^ 64
  opened : c.decoder.nonce = receiver.log.length % 2 ^ 64
  fed : sender.fed ≤ sender.out.accepted.length
  read : receiver.log.length ≤ sender.fed
  bytes : c.buffered ++ c.flight ++ c.staged =
    records transport (receiver.log.length % 2 ^ 64) (sender.unread receiver)
  bounded : c.staged.length < backpressureBoundary + (2 + (frameHead + maxPayload + tagLen))

variable {transport : Transport} {c c' : Cable} {s s' u u' : Session} {frame : Frame} {count : Nat}

theorem Cable.Conveys.start (transport : Transport) {sender receiver : Session} (fed : sender.fed = 0)
    (log : receiver.log = []) : Conveys transport {} sender receiver := by
  refine ⟨by rw [fed]; rfl, by rw [log]; rfl, by omega, by simp [log], ?_, by decide⟩
  simp [Session.unread, fed, log, records]

/-- Whatever neither end of the cable sees. -/
theorem Cable.Conveys.of_eq (conveys : c.Conveys transport s u) (out : s.out.accepted <+: s'.out.accepted)
    (fed : s'.fed = s.fed) (log : u'.log = u.log) : c.Conveys transport s' u' := by
  have same : s'.unread u' = s.unread u := by
    rw [Session.unread, Session.unread, fed, log]
    congr 1
    exact ((List.prefix_iff_eq_take.mp ((List.take_prefix _ _).trans out)).trans
      (by rw [List.length_take_of_le conveys.fed])).symm
  refine ⟨?_, ?_, ?_, ?_, ?_, conveys.bounded⟩
  · rw [fed]
    exact conveys.sealed
  · rw [log]
    exact conveys.opened
  · rw [fed]
    exact Nat.le_trans conveys.fed out.length_le
  · rw [fed, log]
    exact conveys.read
  · rw [same, log]
    exact conveys.bytes

theorem Cable.Conveys.write (conveys : c.Conveys transport s u) (wrote : c.write count = some c') :
    c'.Conveys transport s u := by
  obtain ⟨-, same⟩ := Option.ite_none_right_eq_some.mp wrote
  cases same
  refine ⟨conveys.sealed, conveys.opened, conveys.fed, conveys.read, ?_, ?_⟩
  · rw [← conveys.bytes]
    simp [List.append_assoc]
  · have bounded := conveys.bounded
    simp only [List.length_drop]
    omega

theorem Cable.Conveys.arrive (conveys : c.Conveys transport s u) (came : c.arrive count = some c') :
    c'.Conveys transport s u := by
  obtain ⟨-, same⟩ := Option.ite_none_right_eq_some.mp came
  cases same
  refine ⟨conveys.sealed, conveys.opened, conveys.fed, conveys.read, ?_, conveys.bounded⟩
  rw [← conveys.bytes]
  simp only [List.append_assoc]
  rw [← List.append_assoc (c.flight.take count), List.take_append_drop]

/-- The frame after the last one fed is sealed behind the others. -/
theorem Cable.Conveys.feed (conveys : c.Conveys transport s u) (proper : frame.Proper)
    (there : s.out.accepted[s.fed]? = some frame) (did : c.feed transport frame = some (c', took)) :
    took = true ∧ c'.Conveys transport { s with fed := s.fed + 1 } u := by
  obtain ⟨room, did⟩ := Option.ite_none_right_eq_some.mp did
  rw [encode_seals proper.sealable] at did
  cases did
  have within : s.fed < s.out.accepted.length := (List.getElem?_eq_some_iff.mp there).1
  have more : ({ s with fed := s.fed + 1 } : Session).unread u = s.unread u ++ [frame] := by
    have read := conveys.read
    simp only [Session.unread]
    rw [List.take_add_one, there, Option.toList_some, List.drop_append_of_le_length]
    rw [List.length_take_of_le conveys.fed]
    exact read
  have position : (u.log.length % 2 ^ 64 + (s.unread u).length) % 2 ^ 64 = s.fed % 2 ^ 64 := by
    have read := conveys.read
    rw [Nat.mod_add_mod, Session.unread, List.length_drop, List.length_take_of_le conveys.fed,
      Nat.add_sub_cancel' read]
  refine ⟨rfl, ?_, conveys.opened, within, Nat.le_succ_of_le conveys.read, ?_, ?_⟩
  · dsimp only
    rw [conveys.sealed, Nat.mod_add_mod]
  · dsimp only
    rw [more, records_append _ (Nat.mod_lt _ (by decide)), position, ← conveys.bytes, conveys.sealed]
    simp [records]
  · have size : (record transport c.encoder.nonce frame).length ≤ 2 + (frameHead + maxPayload + tagLen) := by
      rw [record_length, Frame.encode_length]
      have small := proper.small
      omega
    simp only [List.length_append]
    omega

/-- A reader that has anything to read gets the next frame; it never gets an error. -/
theorem Cable.Conveys.next (conveys : c.Conveys transport s u) (proper : ∀ frame ∈ s.out.accepted, frame.Proper)
    (opens : ∀ nonce plain, transport.readMessage nonce (transport.writeMessage nonce plain) = .ok plain) :
    (c.next transport = none ∧ (c.flight = [] → c.staged = [] → u.log.length = s.fed)) ∨
      ∃ c' frame, c.next transport = some (c', some frame.encode) ∧ u.nextFrom s = some frame ∧
        ∀ u' : Session, u'.log = u.log ++ [frame] → c'.Conveys transport s u' := by
  have length : (s.unread u).length = s.fed - u.log.length := by
    rw [Session.unread, List.length_drop, List.length_take_of_le conveys.fed]
  have bytes := conveys.bytes
  cases shape : s.unread u with
  | nil =>
    rw [shape, records] at bytes
    obtain ⟨⟨empty, -⟩, -⟩ : (c.buffered = [] ∧ c.flight = []) ∧ c.staged = [] := by
      simpa [and_assoc] using bytes
    refine .inl ⟨?_, fun _ _ => ?_⟩
    · rw [Cable.next, empty]
      rfl
    · have read := conveys.read
      rw [shape] at length
      simp only [List.length_nil] at length
      omega
  | cons frame waiting =>
    have waits : u.log.length < s.fed := by
      rw [shape, List.length_cons] at length
      omega
    have there : s.out.accepted[u.log.length]? = some frame := by
      have head : (s.unread u).head? = some frame := by rw [shape]; rfl
      rw [Session.unread, List.head?_drop, List.getElem?_take_of_lt waits] at head
      exact head
    have fits := (proper frame (List.mem_of_getElem? there)).sealable
    rw [shape, records] at bytes
    by_cases short : c.buffered.length < (record transport (u.log.length % 2 ^ 64) frame).length
    · refine .inl ⟨?_, fun flown flushed => ?_⟩
      · rw [List.append_assoc] at bytes
        rw [Cable.next, decode_waits fits bytes short]
      · rw [flown, flushed, List.append_nil, List.append_nil] at bytes
        rw [bytes, List.length_append] at short
        omega
    · obtain ⟨behind, split⟩ : record transport (u.log.length % 2 ^ 64) frame <+: c.buffered := by
        have whole := List.prefix_append (record transport (u.log.length % 2 ^ 64) frame)
          (records transport ((u.log.length % 2 ^ 64 + 1) % 2 ^ 64) waiting)
        rw [← bytes, List.append_assoc] at whole
        exact List.prefix_of_prefix_length_le whole (List.prefix_append _ _) (Nat.le_of_not_lt short)
      have decoded : c.decoder.decode transport c.buffered =
          ((⟨(u.log.length + 1) % 2 ^ 64⟩, behind), .ok (some frame.encode)) := by
        rw [← split, ← conveys.opened, decode_opens fits (opens _ _), conveys.opened, Nat.mod_add_mod]
      refine .inr ⟨{ c with decoder := ⟨(u.log.length + 1) % 2 ^ 64⟩, buffered := behind }, frame, ?_, ?_,
        fun u' log => ?_⟩
      · rw [Cable.next, decoded]
      · rw [Session.nextFrom, if_pos waits, there]
      · have one : u'.log.length = u.log.length + 1 := by simp [log]
        have tail : s.unread u' = waiting := by
          rw [Session.unread, one, ← List.drop_drop]
          exact congrArg (List.drop 1) shape
        refine ⟨conveys.sealed, by rw [one], conveys.fed, by omega, ?_, conveys.bounded⟩
        dsimp only
        rw [tail, one]
        rw [← split, List.append_assoc, List.append_assoc, Nat.mod_add_mod] at bytes
        rw [List.append_assoc]
        exact List.append_cancel_left bytes

/-! Only the writer's `feed` counts a frame as fed. -/

theorem enqueue_fed (queued : s.enqueue frame = some s') : s'.fed = s.fed := by
  obtain ⟨rfl, -, -⟩ := enqueue_eq queued
  rfl

theorem SendMove.fed {stage next : Sending} (move : SendMove s stream stage s' next) : s'.fed = s.fed := by
  cases move with
  | queues chunk rest did => exact enqueue_fed did
  | _ => rfl

theorem closeStream_fed {stream : Nat} {sent : Bool} (closed : s.closeStream stream sent = some s') :
    s'.fed = s.fed := by
  obtain ⟨-, queued⟩ | ⟨-, rfl⟩ := closeStream_cases closed
  · exact (enqueue_fed queued).trans (removeAndClose_fed s _)
  · exact removeAndClose_fed s _

theorem Move.fed {t t' : Tunnel} {act : TunnelAct} (move : Move s t act s' t') : s'.fed = s.fed := by
  cases move with
  | reserve _ did =>
    obtain ⟨-, same⟩ := Option.ite_none_left_eq_some.mp did
    cases same
    rfl
  | announce stream _ did => exact enqueue_fed did
  | closed stream _ _ did =>
    have queued := enqueue_fed did
    exact queued
  | grant stream _ _ _ did => exact enqueue_fed did
  | giveUp stream | leave stream => exact remove_fed s _
  | greeting stage next stream _ _ did | rejected stage stream _ _ did | uplinkSend stage next stream _ _ did =>
    exact (sendStep_move did).fed
  | recv stream chunk _ _ _ did => exact take_fed did
  | _ => rfl

theorem AcceptorMove.fed {a b : Acceptor} {act : AcceptorAct} (move : AcceptorMove a act b) :
    b.session.fed = a.session.fed := by
  cases move with
  | proceed stream next _ did => exact did.fed
  | recv stream chunk _ did => exact take_fed did
  | grants stream bytes _ did => exact enqueue_fed did
  | shutdown stream sent _ did => exact closeStream_fed did
  | drop stream sent _ did =>
    have closed := closeStream_fed did
    exact closed
  | _ => rfl

theorem step_fed {act : Session.Act} (stepped : s.step act = some s') (tasks : act.isLive = true)
    (other : act ≠ .feed) : s'.fed = s.fed := by
  cases step_move stepped with
  | evicts id => exact removeAndClose_fed s id
  | replies frame _ did =>
    have queued := enqueue_fed did
    exact queued
  | feed => exact absurd rfl other
  | heard | short | lapse => cases tasks
  | _ => rfl

/-- What a session's tasks do on a cable is what they do on a link of frames. -/
theorem Session.onCable_step {act : Session.Act} (live : Live s) (conveys : c.Conveys transport s u)
    (did : s.onCable transport c act = some (c', s')) :
    act.isLive = true ∧ s.step act = some s' ∧ c'.Conveys transport s' u := by
  have aside (tasks : act.isLive = true) (other : act ≠ .feed) (stepped : s.step act = some s') :
      c.Conveys transport s' u :=
    conveys.of_eq (extends_step stepped tasks).out (step_fed stepped tasks other) rfl
  have plain (other : act ≠ .feed) (did : (if act.isLive then (s.step act).map (c, ·) else none) = some (c', s')) :
      act.isLive = true ∧ s.step act = some s' ∧ c'.Conveys transport s' u := by
    obtain ⟨tasks, did⟩ := Option.ite_none_right_eq_some.mp did
    obtain ⟨session, stepped, same⟩ := Option.map_eq_some_iff.mp did
    cases same
    exact ⟨tasks, stepped, aside tasks other stepped⟩
  cases act with
  | takeBatch count =>
    obtain ⟨-, did⟩ := Option.ite_none_right_eq_some.mp did
    obtain ⟨session, stepped, same⟩ := Option.map_eq_some_iff.mp did
    cases same
    exact ⟨rfl, stepped, aside rfl (by simp) stepped⟩
  | feed =>
    obtain ⟨frame, there, did⟩ := Option.bind_eq_some_iff.mp did
    obtain ⟨⟨fed, took⟩, sealed, did⟩ := Option.bind_eq_some_iff.mp did
    obtain ⟨session, stepped, same⟩ := Option.map_eq_some_iff.mp did
    cases same
    obtain ⟨rfl, after⟩ := conveys.feed (live.frames frame (List.mem_of_getElem? there)) there sealed
    simp only [if_true] at stepped
    refine ⟨rfl, stepped, ?_⟩
    cases step_move stepped with
    | feed => exact after
  | _ => exact plain (by simp) did

/-- And so is what its reader gets: always the next frame. -/
theorem Session.atCable_step (live : Live s) (conveys : c.Conveys transport s u)
    (opens : ∀ nonce plain, transport.readMessage nonce (transport.writeMessage nonce plain) = .ok plain)
    (did : u.atCable transport c = some (c', u')) :
    ∃ frame, u.nextFrom s = some frame ∧ u.step (.recv frame.encode) = some u' ∧
      c'.Conveys transport s u' := by
  obtain ⟨-, did⟩ := Option.ite_none_right_eq_some.mp did
  obtain ⟨⟨taken, got⟩, came, did⟩ := Option.bind_eq_some_iff.mp did
  obtain ⟨session, stepped, same⟩ := Option.map_eq_some_iff.mp did
  cases same
  obtain ⟨waits, -⟩ | ⟨next, frame, present, fetched, after⟩ := conveys.next live.frames opens
  · rw [waits] at came
    cases came
  · cases present.symm.trans came
    have proper := live.frames frame (List.mem_of_getElem? (nextFrom_eq fetched).2)
    obtain ⟨-, heard⟩ := recv_heard proper stepped
    exact ⟨frame, fetched, stepped, after u' heard.log⟩

/-- What a step of the bytes is to the frames; most steps of a cable are nothing. -/
def LinkAct.onFrames : LinkAct → Option PairAct
  | .near act => some (.near act)
  | .far act => some (.far act)
  | .nearHears => some .nearHears
  | .farHears => some .farHears
  | .nearWrites _ | .farWrites _ | .nearReads _ | .farReads _ => none

def LinkPair.frames (l : LinkPair) : Pair := { near := l.near, far := l.far }

/-- A condition on the steps of a link of frames, met by a step of the bytes. -/
def LinkPair.Seen (ok : Pair → PairAct → Prop) (l : LinkPair) (act : LinkAct) : Prop :=
  ∀ seen, act.onFrames = some seen → ok l.frames seen

/-- The bytes beneath a link of frames. -/
structure LinkPair.Beneath (up down : Transport) (l : LinkPair) (p : Pair) : Prop where
  frames : l.frames = p
  joined : p.Joined
  up : l.up.Conveys up p.near.session p.far.session
  down : l.down.Conveys down p.far.session p.near.session

variable {up down : Transport} {l next : LinkPair} {p q : Pair} {ok : Pair → PairAct → Prop} {act : LinkAct}

/-- A step that the frames see: both cables follow. -/
private theorem beneath_follows {seen : PairAct} (beneath : l.Beneath up down p) (allowed : l.Seen ok act)
    (same : act.onFrames = some seen) (stepped : p.step seen = some next.frames)
    (upAfter : next.up.Conveys up next.near.session next.far.session)
    (downAfter : next.down.Conveys down next.far.session next.near.session) :
    Matched Pair.step ok (LinkPair.Beneath up down) p next := by
  refine .follow stepped (beneath.frames ▸ allowed seen same) ⟨rfl, ?_, upAfter, downAfter⟩
  exact (Pair.step_move beneath.joined stepped).joined beneath.joined

theorem LinkPair.Beneath.nearAct {act : ProxyAct} (beneath : l.Beneath up down p)
    (allowed : l.Seen ok (.near act)) (stepped : l.step up down (.near act) = some next) :
    Matched Pair.step ok (LinkPair.Beneath up down) p next := by
  obtain rfl := beneath.frames
  have joined := beneath.joined
  cases act with
  | link act =>
    obtain ⟨⟨cable, session⟩, did, rfl⟩ := Option.map_eq_some_iff.mp stepped
    obtain ⟨tasks, moved, after⟩ := Session.onCable_step joined.nearLive beneath.up did
    have grown := extends_step moved tasks
    refine beneath_follows beneath allowed rfl ?_ after ?_
    · have linked : l.near.step (.link act) = some { l.near with session } := congrArg (Option.map _) moved
      simp only [Pair.step, tasks, if_true, LinkPair.frames, linked, Option.map_some]
    · exact beneath.down.of_eq List.prefix_rfl rfl grown.log
  | tunnel name act =>
    obtain ⟨near, moved, rfl⟩ := Option.map_eq_some_iff.mp stepped
    have seen : l.frames.step (.near (.tunnel name act)) = some { l.frames with near } := by
      simp only [Pair.step, LinkPair.frames, moved, Option.map_some]
    obtain ⟨⟨session, tunnel⟩, did, rfl⟩ := Option.map_eq_some_iff.mp moved
    have move := tunnelStep_move did
    refine beneath_follows beneath allowed rfl seen ?_ ?_
    · exact beneath.up.of_eq move.extends.out move.fed rfl
    · exact beneath.down.of_eq List.prefix_rfl rfl move.extends.log

theorem LinkPair.Beneath.farAct {act : AcceptorAct} (beneath : l.Beneath up down p)
    (allowed : l.Seen ok (.far act)) (stepped : l.step up down (.far act) = some next) :
    Matched Pair.step ok (LinkPair.Beneath up down) p next := by
  obtain rfl := beneath.frames
  have joined := beneath.joined
  have user (plain : ∀ link, act ≠ .link link) (did : (l.far.step act).map (fun far => { l with far }) = some next) :
      Matched Pair.step ok (LinkPair.Beneath up down) l.frames next := by
    obtain ⟨far, moved, rfl⟩ := Option.map_eq_some_iff.mp did
    have move := acceptorStep_move plain moved
    have seen : l.frames.step (.far act) = some { l.frames with far } := by
      cases act with
      | link act => exact absurd rfl (plain act)
      | _ => simp only [Pair.step, LinkPair.frames, moved, Option.map_some]
    refine beneath_follows beneath allowed rfl seen ?_ ?_
    · exact beneath.up.of_eq List.prefix_rfl rfl move.extends.log
    · exact beneath.down.of_eq move.extends.out move.fed rfl
  cases act with
  | link act =>
    obtain ⟨⟨cable, session⟩, did, rfl⟩ := Option.map_eq_some_iff.mp stepped
    obtain ⟨tasks, moved, after⟩ := Session.onCable_step joined.farLive beneath.down did
    have grown := extends_step moved tasks
    refine beneath_follows beneath allowed rfl ?_ ?_ after
    · have linked : l.far.step (.link act) = some { l.far with session } := congrArg (Option.map _) moved
      simp only [Pair.step, tasks, if_true, LinkPair.frames, linked, Option.map_some]
    · exact beneath.up.of_eq List.prefix_rfl rfl grown.log
  | _ => exact user (by simp) stepped

/-- Steps that move bytes on, and no more. -/
private theorem beneath_aside (beneath : l.Beneath up down p) (frames : next.frames = l.frames)
    (upAfter : next.up.Conveys up p.near.session p.far.session)
    (downAfter : next.down.Conveys down p.far.session p.near.session) :
    Matched Pair.step ok (LinkPair.Beneath up down) p next :=
  .stutter ⟨frames.trans beneath.frames, beneath.joined, upAfter, downAfter⟩

/-- Whatever happens to the bytes is nothing, or a step of the link of frames. -/
theorem linkPair_simulates (ok : Pair → PairAct → Prop)
    (upOpens : ∀ nonce plain, up.readMessage nonce (up.writeMessage nonce plain) = .ok plain)
    (downOpens : ∀ nonce plain, down.readMessage nonce (down.writeMessage nonce plain) = .ok plain) :
    Simulates (LinkPair.step up down) (LinkPair.Seen ok) Pair.step ok (LinkPair.Beneath up down) := by
  intro l act next p beneath allowed stepped
  cases act with
  | near act => exact beneath.nearAct allowed stepped
  | far act => exact beneath.farAct allowed stepped
  | nearWrites count =>
    obtain ⟨-, did⟩ := Option.ite_none_right_eq_some.mp stepped
    obtain ⟨cable, wrote, rfl⟩ := Option.map_eq_some_iff.mp did
    exact beneath_aside beneath rfl (beneath.up.write wrote) beneath.down
  | farWrites count =>
    obtain ⟨-, did⟩ := Option.ite_none_right_eq_some.mp stepped
    obtain ⟨cable, wrote, rfl⟩ := Option.map_eq_some_iff.mp did
    exact beneath_aside beneath rfl beneath.up (beneath.down.write wrote)
  | nearReads count =>
    obtain ⟨-, did⟩ := Option.ite_none_right_eq_some.mp stepped
    obtain ⟨cable, came, rfl⟩ := Option.map_eq_some_iff.mp did
    exact beneath_aside beneath rfl beneath.up (beneath.down.arrive came)
  | farReads count =>
    obtain ⟨-, did⟩ := Option.ite_none_right_eq_some.mp stepped
    obtain ⟨cable, came, rfl⟩ := Option.map_eq_some_iff.mp did
    exact beneath_aside beneath rfl (beneath.up.arrive came) beneath.down
  | nearHears =>
    obtain rfl := beneath.frames
    obtain ⟨⟨cable, session⟩, did, rfl⟩ := Option.map_eq_some_iff.mp stepped
    obtain ⟨frame, fetched, moved, after⟩ := Session.atCable_step beneath.joined.farLive beneath.down downOpens did
    have linked : l.near.step (.link (.recv frame.encode)) = some { l.near with session } :=
      congrArg (Option.map _) moved
    have proper := beneath.joined.farLive.frames frame (List.mem_of_getElem? (nextFrom_eq fetched).2)
    obtain ⟨-, heard⟩ := recv_heard proper moved
    refine beneath_follows beneath allowed rfl ?_ ?_ after
    · have fetched : l.frames.near.session.nextFrom l.frames.far.session = some frame := fetched
      simp only [Pair.step, fetched, Option.bind_some]
      simp only [LinkPair.frames, linked, Option.map_some]
    · exact beneath.up.of_eq (heard.out ▸ List.prefix_rfl) heard.fed rfl
  | farHears =>
    obtain rfl := beneath.frames
    obtain ⟨⟨cable, session⟩, did, rfl⟩ := Option.map_eq_some_iff.mp stepped
    obtain ⟨frame, fetched, moved, after⟩ := Session.atCable_step beneath.joined.nearLive beneath.up upOpens did
    have linked : l.far.step (.link (.recv frame.encode)) = some { l.far with session } :=
      congrArg (Option.map _) moved
    have proper := beneath.joined.nearLive.frames frame (List.mem_of_getElem? (nextFrom_eq fetched).2)
    obtain ⟨-, heard⟩ := recv_heard proper moved
    refine beneath_follows beneath allowed rfl ?_ after ?_
    · have fetched : l.frames.far.session.nextFrom l.frames.near.session = some frame := fetched
      simp only [Pair.step, fetched, Option.bind_some]
      simp only [LinkPair.frames, linked, Option.map_some]
    · exact beneath.down.of_eq (heard.out ▸ List.prefix_rfl) heard.fed rfl

theorem LinkPair.Beneath.start (up down : Transport) (nearStreams farStreams : Nat) :
    (LinkPair.start nearStreams farStreams).Beneath up down (.start nearStreams farStreams) :=
  ⟨rfl, .start nearStreams farStreams, .start up rfl rfl, .start down rfl rfl⟩

/-- Beneath every run of the bytes there is one of the frames. -/
theorem LinkPair.run_beneath {nearStreams farStreams : Nat} {actions : List LinkAct}
    (upOpens : ∀ nonce plain, up.readMessage nonce (up.writeMessage nonce plain) = .ok plain)
    (downOpens : ∀ nonce plain, down.readMessage nonce (down.writeMessage nonce plain) = .ok plain)
    (permitted : Meets (LinkPair.step up down) (LinkPair.Seen ok) (.start nearStreams farStreams) actions)
    (ran : run (LinkPair.step up down) (.start nearStreams farStreams) actions = some l) :
    ∃ acts, run Pair.step (.start nearStreams farStreams) acts = some l.frames ∧
      Meets Pair.step ok (.start nearStreams farStreams) acts ∧ l.Beneath up down l.frames := by
  obtain ⟨acts, p, ran', allowed, beneath⟩ := (linkPair_simulates ok upOpens downOpens).along
    (.start up down nearStreams farStreams) permitted ran
  obtain rfl := beneath.frames
  exact ⟨acts, ran', allowed, beneath⟩

theorem LinkPair.run_frames {nearStreams farStreams : Nat} {actions : List LinkAct}
    (upOpens : ∀ nonce plain, up.readMessage nonce (up.writeMessage nonce plain) = .ok plain)
    (downOpens : ∀ nonce plain, down.readMessage nonce (down.writeMessage nonce plain) = .ok plain)
    (ran : run (LinkPair.step up down) (.start nearStreams farStreams) actions = some l) :
    ∃ acts, run Pair.step (.start nearStreams farStreams) acts = some l.frames ∧ l.Beneath up down l.frames := by
  have free : Meets (LinkPair.step up down) (LinkPair.Seen fun _ _ => True) (.start nearStreams farStreams) actions :=
    meets_of_mem fun _ _ _ _ _ => trivial
  obtain ⟨acts, ran', -, beneath⟩ := LinkPair.run_beneath upOpens downOpens free ran
  exact ⟨acts, ran', beneath⟩

/-- What the two ends of a cable can rely on. -/
structure Cable.Delivers (transport : Transport) (c : Cable) (sender receiver : Session) : Prop where
  /-- The encoder refuses nothing that is queued. -/
  takes : ∀ frame ∈ sender.out.accepted, ∀ c' took, c.feed transport frame = some (c', took) → took = true
  /-- The decoder gives out the next frame and never an error. -/
  reads : ∀ c' got, c.next transport = some (c', got) →
    ∃ frame, got = some frame.encode ∧ receiver.nextFrom sender = some frame
  /-- The write buffer holds less than its bound and one record. -/
  bounded : c.staged.length < backpressureBoundary + (2 + (frameHead + maxPayload + tagLen))
  /-- A writer that waits for a batch has left nothing behind: all it was given is on
  the socket. -/
  flushed : sender.fed = sender.out.taken → c.staged = [] → c.buffered ++ c.flight =
    records transport (receiver.log.length % 2 ^ 64) ((sender.out.accepted.take sender.out.taken).drop receiver.log.length)
  /-- A reader that waits on an empty socket has got everything. -/
  drained : c.staged = [] → c.flight = [] → c.next transport = none →
    receiver.log = sender.out.accepted.take sender.fed

theorem Cable.Conveys.delivers (conveys : c.Conveys transport s u) (live : Live s) (carries : Carries u s)
    (opens : ∀ nonce plain, transport.readMessage nonce (transport.writeMessage nonce plain) = .ok plain) :
    c.Delivers transport s u := by
  refine ⟨fun frame member c' took did => ?_, fun c' got came => ?_, conveys.bounded, fun idle empty => ?_,
    fun empty flown waits => ?_⟩
  · obtain ⟨room, did⟩ := Option.ite_none_right_eq_some.mp did
    rw [encode_seals (live.frames frame member).sealable] at did
    cases did
    rfl
  · obtain ⟨waits, -⟩ | ⟨next, frame, present, fetched, -⟩ := conveys.next live.frames opens
    · rw [waits] at came
      cases came
    · cases present.symm.trans came
      exact ⟨frame, rfl, fetched⟩
  · have bytes := conveys.bytes
    rw [empty, List.append_nil, Session.unread, idle] at bytes
    exact bytes
  · obtain ⟨-, all⟩ | ⟨next, frame, present, -⟩ := conveys.next live.frames opens
    · rw [← all flown empty]
      exact List.prefix_iff_eq_take.mp carries.front
    · rw [waits] at present
      cases present

/-- Down to the bytes. Writers flush when they have to, sockets take and give bytes in
any pieces, everything in any order: every run of the two ends is a run of the link
of frames, whose steps meet whatever condition the frames' steps here have met; and
in every state of it nothing is refused, corrupted, held back or lost. Assumed of the
two ciphers is that they open what they have sealed at the same nonce. -/
theorem links_carry_frames {nearStreams farStreams : Nat} {actions : List LinkAct} {final : LinkPair}
    (upOpens : ∀ nonce plain, up.readMessage nonce (up.writeMessage nonce plain) = .ok plain)
    (downOpens : ∀ nonce plain, down.readMessage nonce (down.writeMessage nonce plain) = .ok plain)
    (ran : run (LinkPair.step up down) (.start nearStreams farStreams) actions = some final) :
    (∀ ok : Pair → PairAct → Prop,
      Meets (LinkPair.step up down) (LinkPair.Seen ok) (.start nearStreams farStreams) actions →
      ∃ acts, run Pair.step (.start nearStreams farStreams) acts = some final.frames ∧
        Meets Pair.step ok (.start nearStreams farStreams) acts) ∧
    final.up.Delivers up final.near.session final.far.session ∧
    final.down.Delivers down final.far.session final.near.session := by
  refine ⟨fun ok met => ?_, ?_⟩
  · obtain ⟨acts, ran', allowed, -⟩ := LinkPair.run_beneath upOpens downOpens met ran
    exact ⟨acts, ran', allowed⟩
  · obtain ⟨-, -, beneath⟩ := LinkPair.run_frames upOpens downOpens ran
    exact ⟨beneath.up.delivers beneath.joined.nearLive beneath.joined.toFar upOpens,
      beneath.down.delivers beneath.joined.farLive beneath.joined.toNear downOpens⟩

/-- A stream is opened: both records are on the socket, the reader has the first and
three bytes of the second. -/
private def openedInPieces : List LinkAct :=
  .near (.tunnel 0 (.begin (List.replicate 37 0))) :: List.replicate 6 (.near (.tunnel 0 .proceed)) ++
    [.near (.link (.takeBatch 2)), .near (.link .feed), .near (.link .feed), .nearWrites 20, .nearWrites 69,
      .farReads 1, .farReads 28, .farHears, .far (.link .advance)]

theorem links_carry_frames_opened :
    ∃ final acts, run (LinkPair.step .tagging .tagging) (.start 1 1) openedInPieces = some final ∧
      run Pair.step (.start 1 1) acts = some final.frames ∧ final.far.session.log = [⟨1, .opening, []⟩] ∧
      final.up.buffered ++ final.up.flight = records .tagging 1 [⟨1, .data, List.replicate 37 0⟩] := by
  have checked : ((run (LinkPair.step .tagging .tagging) (.start 1 1) openedInPieces).any fun final => decide (
      final.far.session.log = [⟨1, .opening, []⟩] ∧ final.near.session.fed = final.near.session.out.taken ∧
      final.up.staged = [] ∧
      final.near.session.out.accepted.take final.near.session.out.taken =
        [⟨1, .opening, []⟩, ⟨1, .data, List.replicate 37 0⟩])) = true := by
    decide +kernel
  obtain ⟨final, ran, log, idle, empty, queued⟩ := run_reaches checked
  obtain ⟨frames, up, -⟩ := links_carry_frames Transport.tagging_opens Transport.tagging_opens ran
  obtain ⟨acts, ran', -⟩ := frames (fun _ _ => True) (meets_of_mem fun _ _ _ _ _ => trivial)
  have socket := up.flushed idle empty
  rw [queued, log] at socket
  exact ⟨final, acts, ran, ran', log, socket⟩

end DshProxy.Mux

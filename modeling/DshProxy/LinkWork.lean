import DshProxy.LinkBytes
import DshProxy.Quiescence
import Mathlib.Data.Finset.Dedup

/-! How much two joined ends have left to do when nobody outside asks for anything
more: the frames in the outboxes are to be carried over, what they ask for is to be
done, the chunks in the inboxes are to be shown to the clients, and credit is to go
back for them. Frames cause frames, but not for long: DATA is paid back by a WINDOW
or turned away by a CLOSE, an OPEN may be turned away by a CLOSE, and neither a WINDOW
nor a CLOSE is answered. The sockets hold some number of bytes each way; a writer that
finds its own full waits. -/
namespace DshProxy.Mux
open Sync Wire Transitions

/-- What a tunnel does unasked, with a client that takes what it is shown. -/
def TunnelAct.isOwn : TunnelAct → Bool
  | .begin _ | .read _ | .readEnds | .writeFails => false
  | _ => true

/-- What the ends of a link do unasked: no client dials in or says anything, and the
user of the far end reads, sends, grants and closes nothing. -/
def LinkAct.isOwn : LinkAct → Bool
  | .near (.tunnel _ act) => act.isOwn
  | .far (.link _) | .far (.proceed _) => true
  | .far _ => false
  | _ => true

/-- There is room in the socket for what is written to it. -/
def LinkPair.HasRoom (room : Nat) (l : LinkPair) : LinkAct → Prop
  | .nearWrites count => l.up.flight.length + count ≤ room
  | .farWrites count => l.down.flight.length + count ≤ room
  | _ => True

instance (room : Nat) (l : LinkPair) : (act : LinkAct) → Decidable (l.HasRoom room act)
  | .nearWrites _ | .farWrites _ => inferInstanceAs (Decidable (_ ≤ _))
  | .near _ | .far _ | .nearReads _ | .farReads _ | .nearHears | .farHears => isTrue trivial

/-- A step over sockets that hold so many bytes each way. -/
def LinkPair.stepIn (room : Nat) (up down : Transport) (l : LinkPair) (act : LinkAct) : Option LinkPair :=
  if l.HasRoom room act then l.step up down act else none

/-- No record of a frame that is ever queued is longer. -/
def maxRecord : Nat := 2 + (frameHead + maxPayload + tagLen)

/-- To carry a frame over: it is taken and fed, and every byte of its record is
written and read. -/
def carriage : Nat := 2 * maxRecord + 2

/-- To carry over and hear a frame that asks for no more than a slot to be freed. -/
def notice : Nat := carriage + 2

/-- To hear a frame, and to do what it asks for. -/
def Frame.work (frame : Frame) : Nat :=
  match frame.kind with
  -- Admitted, or refused with a CLOSE.
  | .opening => notice + 2
  -- Put into the inbox, shown and granted back; or turned away with a CLOSE.
  | .data => frame.payload.length + notice + 5
  | .close | .window | .other _ => 2

def Reader.work : Reader → Nat
  | .accepting _ => 2
  | .offer _ _ body => body.length + notice + 4
  | .overflow _ _ => notice + 3
  | .refuse _ _ => notice + 1
  | .idle | .echo | .dying | .aborting | .ended => 0

/-- A send may have to cut its bytes into frames of one byte. -/
def perByte : Nat := carriage + (maxPayload + notice + 5) + 2

def Sending.work : Sending → Nat
  | .acquire rest => max rest.length 1 * perByte
  | .queue chunk rest => rest.length * perByte + (carriage + (chunk.length + notice + 5)) + 1
  | .sent | .broken => 0

def Uplink.work : Uplink → Nat
  | .sending stage => stage.work
  | .off | .reading | .ended => 0

/-- The loop, once nothing more comes, shuts the carrier down. -/
def Downlink.work : Downlink → Nat
  | .waiting => 2
  | .writing rest _ => rest.length + notice + 4
  | .granting => notice + 3
  | .shutting _ => 1
  | .ended _ => 0

/-- What the caller has before it, up to the CLOSE. -/
def Phase.work (head : Bytes) : Phase → Nat
  | .idle | .returned => 0
  | .opening stage =>
    let announces := (carriage + (notice + 2)) + (head.length * perByte + notice + 4) + 1
    match stage with
    | .reserve => announces + 4
    | .allocate => announces + 3
    | .insert _ => announces + 2
    | .announce _ => announces
    | .giveUp _ => 2
    | .refused | .opened _ => 0
  | .greeting stage => stage.work + notice + 4
  | .running => notice + 3
  | .closing => notice + 1

def Tunnel.work (t : Tunnel) : Nat := t.phase.work t.head + t.uplink.work + t.downlink.work

/-- To show a chunk and to grant it back. -/
def showing (chunk : Bytes) : Nat := chunk.length + notice + 3

/-- Of all the chunks in an inbox. -/
def Stream.work (st : Stream) : Nat := (st.inbox.queue.map showing).sum

def Session.inboxWork (s : Session) : Nat := ∑ n ∈ Finset.range s.created, (s.arena n).work

/-- What is in a session's hands: its reader, the slots to be freed and the inboxes. -/
def Session.load (s : Session) : Nat := s.reader.work + s.limbo + s.inboxWork

/-- What a session has sent and the other end has not heard, but for the bytes of it
that are in the cable. -/
def Session.outgoing (s receiver : Session) : Nat :=
  ((s.out.accepted.drop receiver.log.length).map Frame.work).sum +
    (s.out.accepted.length - s.fed) * (2 * maxRecord + 1) + (s.out.accepted.length - s.out.taken)

/-- All that a session has to do and to have done. -/
def Session.work (s receiver : Session) : Nat := s.outgoing receiver + s.load

/-- Every byte staged is still to be written and read, every byte in flight to be read. -/
def Cable.work (c : Cable) : Nat := 2 * c.staged.length + c.flight.length

/-- All there is to do, with the tunnels and the far end's streams of the given names. -/
def LinkPair.work (names : Finset Nat) (l : LinkPair) : Nat :=
  l.near.session.work l.far.session + l.far.session.work l.near.session + (l.up.work + l.down.work) +
    (∑ name ∈ names, (l.near.tunnels name).work + ∑ stream ∈ names, (l.far.sending stream).work)

/-- Ids that a caller is still to draw. -/
def Phase.unnumbered : Phase → Nat
  | .opening .reserve | .opening .allocate => 1
  | _ => 0

/-- How far the opener's counter gets with the tunnels that have been begun. -/
def LinkPair.countsTo (names : Finset Nat) (l : LinkPair) : Nat :=
  l.near.session.nextId + ∑ name ∈ names, (l.near.tunnels name).phase.unnumbered

variable {s s' u u' : Session} {t t' : Tunnel} {frame : Frame} {n : Nat}

/-- What a frame costs from its place in the outbox on. -/
def Frame.cost (frame : Frame) : Nat := carriage + frame.work

@[simp] theorem control_close_cost (id : UInt32) : (Frame.control id .close).cost = notice := rfl

@[simp] theorem grant_cost (id : UInt32) (bytes : Nat) : (Frame.grant id bytes).cost = notice := rfl

/-! What the pieces of a session's work come to. -/

theorem Stream.work_eq {st st' : Stream} (queue : st'.inbox.queue = st.inbox.queue) : st'.work = st.work := by
  rw [Stream.work, queue]
  rfl

theorem inboxWork_same (created : s'.created = s.created)
    (queue : ∀ n < s.created, (s'.arena n).inbox.queue = (s.arena n).inbox.queue) :
    s'.inboxWork = s.inboxWork := by
  unfold Session.inboxWork
  rw [created]
  exact Finset.sum_congr rfl fun n inside => Stream.work_eq (queue n (Finset.mem_range.mp inside))

theorem inboxWork_modify (s : Session) (stream : Nat) (change : Stream → Stream)
    (queue : (change (s.arena stream)).inbox.queue = (s.arena stream).inbox.queue) :
    (s.modify stream change).inboxWork = s.inboxWork :=
  inboxWork_same rfl fun n _ => modify_kept s (fun st => st.inbox.queue) queue n

/-- An inbox that has changed, and the others as they were. -/
theorem inboxWork_changed (known : n < s.created) (change : Stream → Stream) :
    (s.modify n change).inboxWork + (s.arena n).work = s.inboxWork + (change (s.arena n)).work := by
  have changed := sum_changed (f := fun k => (s.arena k).work) (g := fun k => ((s.modify n change).arena k).work)
    (Finset.mem_range.mpr known) fun k other => by rw [arena_modify_other s change other]
  have now : (s.modify n change).arena n = change (s.arena n) := Function.update_self _ _ _
  rw [now] at changed
  exact changed

/-- A new stream comes with an empty inbox. -/
theorem inboxWork_insert (s : Session) (id : UInt32) : (s.insert id).inboxWork = s.inboxWork := by
  have fresh : ((s.insert id).arena s.created).work = 0 := by
    simp [Session.insert, Stream.work, Channel.queue]
  have grows : (s.insert id).inboxWork = ∑ n ∈ Finset.range (s.created + 1), ((s.insert id).arena n).work := rfl
  rw [grows, Finset.sum_range_succ, fresh, Nat.add_zero]
  refine Finset.sum_congr rfl fun n inside => ?_
  rw [arena_insert s id (Finset.mem_range.mp inside)]

theorem inboxWork_take (known : n < s.created) (took : s.take n = some (chunk, s')) :
    s'.inboxWork + showing chunk = s.inboxWork := by
  obtain ⟨⟨first, inbox⟩, got, same⟩ := Option.map_eq_some_iff.mp took
  obtain ⟨-, waiting, -⟩ := Channel.recv_eq_some _ got
  cases same
  have changed : (s.modify n fun st => { st with inbox }).inboxWork + (s.arena n).work =
      s.inboxWork + ({ s.arena n with inbox } : Stream).work := inboxWork_changed known _
  have before : (s.arena n).work = showing chunk + (inbox.queue.map showing).sum := by
    rw [Stream.work, waiting, List.map_cons, List.sum_cons]
  have after : ({ s.arena n with inbox } : Stream).work = (inbox.queue.map showing).sum := rfl
  omega

theorem inboxWork_remove (s : Session) (id : UInt32) : (s.remove id).inboxWork = s.inboxWork :=
  inboxWork_same (remove_created s id) fun n _ => by rw [arena_remove]

theorem inboxWork_removeAndClose (s : Session) (id : UInt32) : (s.removeAndClose id).inboxWork = s.inboxWork :=
  inboxWork_same (removeAndClose_created s id) fun n _ => by rw [inbox_removeAndClose]

theorem inboxWork_hangUp (s : Session) (stream : Nat) : (s.hangUp stream).inboxWork = s.inboxWork :=
  inboxWork_modify s stream _ rfl

/-- A slot more to be freed at the most. -/
theorem limbo_remove_le (s : Session) (id : UInt32) : (s.remove id).limbo ≤ s.limbo + 1 := by
  unfold Session.remove
  split
  · exact Nat.le_succ _
  · exact Nat.le_refl _

theorem limbo_removeAndClose_le (s : Session) (id : UInt32) : (s.removeAndClose id).limbo ≤ s.limbo + 1 := by
  unfold Session.removeAndClose
  split
  · exact Nat.le_succ _
  · exact limbo_remove_le s id

theorem limbo_insert_le (s : Session) (id : UInt32) : (s.insert id).limbo ≤ s.limbo + 1 := by
  simp only [Session.insert]
  split
  · exact Nat.le_refl _
  · exact Nat.le_succ _

theorem outgoing_same (out : s'.out = s.out) (fed : s'.fed = s.fed) : s'.outgoing u = s.outgoing u := by
  rw [Session.outgoing, out, fed]
  rfl

theorem work_same (out : s'.out = s.out) (fed : s'.fed = s.fed) (reader : s'.reader = s.reader)
    (limbo : s'.limbo = s.limbo) (inboxes : s'.inboxWork = s.inboxWork) : s'.work u = s.work u := by
  rw [Session.work, Session.load, outgoing_same out fed, reader, limbo, inboxes]
  rfl

theorem work_hangUp (s u : Session) (stream : Nat) : (s.hangUp stream).work u = s.work u :=
  work_same rfl rfl rfl rfl (inboxWork_hangUp s stream)

/-- To take a stream out of the map is a slot's work. -/
theorem work_remove_le (s u : Session) (id : UInt32) : (s.remove id).work u ≤ s.work u + 1 := by
  have limbo := limbo_remove_le s id
  have same : (s.remove id).outgoing u = s.outgoing u := outgoing_same (remove_out s id) (remove_fed s id)
  have inboxes := inboxWork_remove s id
  have reader := (quiet_remove s id).reader
  simp only [Session.work, Session.load, same, inboxes, reader]
  omega

/-- A frame's cost is counted when it gets its place in the outbox. -/
theorem work_enqueue (live : Live s) (carries : Carries u s) (queued : s.enqueue frame = some s') :
    s'.work u = s.work u + frame.cost := by
  obtain ⟨rfl, -, -⟩ := enqueue_eq queued
  have read := carries.front.length_le
  have fed := Nat.le_trans live.fed s.out.within
  have unheard : ((s.out.accepted ++ [frame]).drop u.log.length).map Frame.work =
      (s.out.accepted.drop u.log.length).map Frame.work ++ [frame.work] := by
    rw [List.drop_append_of_le_length read, List.map_append, List.map_singleton]
  have unfed : s.out.accepted.length + 1 - s.fed = (s.out.accepted.length - s.fed) + 1 := by omega
  have taken := s.out.within
  have load : ({ s with out := s.out.push frame } : Session).load = s.load := rfl
  simp only [Session.work, load, Session.outgoing, Channel.push_accepted, Channel.push_taken, unheard,
    List.sum_append, List.sum_singleton, List.length_append, List.length_singleton, unfed, Nat.add_mul,
    Nat.one_mul, Frame.cost, carriage]
  omega

@[simp] theorem work_next (data : Bytes) : (Sending.next data).work = data.length * perByte := by
  unfold Sending.next
  split
  · rename_i empty
    rw [empty]
    simp [Sending.work]
  · rename_i some
    have one : 1 ≤ data.length := List.length_pos_iff.mpr some
    rw [Sending.work, Nat.max_eq_left one]

/-- A chunk is cut off, and at least one byte of what is to be sent is in it. -/
theorem work_cut (rest : Bytes) : (Sending.queue (rest.take maxPayload) (rest.drop maxPayload)).work <
    (Sending.acquire rest).work := by
  have small : (rest.take maxPayload).length ≤ maxPayload := by simp
  have one : 1 ≤ maxPayload := by decide
  have left : (rest.drop maxPayload).length ≤ max rest.length 1 - 1 := by
    rw [List.length_drop]
    omega
  have remaining := Nat.mul_le_mul_right perByte left
  have whole : max rest.length 1 * perByte = (max rest.length 1 - 1) * perByte + perByte := by
    rw [← Nat.succ_mul]
    congr 1
    omega
  simp only [Sending.work, whole]
  have cost : carriage + ((rest.take maxPayload).length + notice + 5) + 1 < perByte := by
    unfold perByte
    omega
  omega

/-- What a frame that is queued adds to the work is its cost; where nothing can be queued
this holds of itself. -/
def Session.Costs (s u : Session) : Prop :=
  ∀ frame s', s.enqueue frame = some s' → s'.work u = s.work u + frame.cost

theorem Live.costs (live : Live s) (carries : Carries u s) : s.Costs u :=
  fun _ _ queued => work_enqueue live carries queued

theorem SendMove.tires {stage next : Sending} (move : SendMove s n stage s' next) (costs : s.Costs u) :
    s'.work u + next.work < s.work u + stage.work := by
  cases move with
  | spends rest =>
    have same : (s.modify n fun st => { st with credit :=
        { (s.arena n).credit with
          permits := (s.arena n).credit.permits - min rest.length maxPayload } }).work u = s.work u :=
      work_same rfl rfl rfl rfl (inboxWork_modify s n _ rfl)
    have cut := work_cut rest
    omega
  | shut rest =>
    have some : 0 < (Sending.acquire rest).work := Nat.mul_pos (by omega) (by decide)
    have none : Sending.broken.work = 0 := rfl
    omega
  | queues chunk rest did =>
    have more := costs _ _ did
    rw [work_next, more]
    simp only [Frame.cost, Frame.work, Sending.work]
    omega
  | dead chunk rest =>
    simp only [Sending.work]
    omega

theorem work_after_le (next : Sending) : (Uplink.after next).work ≤ next.work := by
  cases next <;> exact Nat.le_refl _

/-- Whatever a tunnel does unasked, there is less to do behind it. -/
theorem Move.tires {act : TunnelAct} (move : Move s t act s' t') (own : act.isOwn = true) (costs : s.Costs u)
    (known : ∀ n, t.stream = some n → n < s.created) : s'.work u + t'.work < s.work u + t.work := by
  cases move with
  | begin | read | readEnds | writeFails => cases own
  | reserve phase did =>
    obtain ⟨-, same⟩ := Option.ite_none_left_eq_some.mp did
    cases same
    have same : ({ s with budget := s.budget - 1 } : Session).work u = s.work u := rfl
    simp only [Tunnel.work, phase, Phase.work, same]
    omega
  | refused phase =>
    simp only [Tunnel.work, phase, Phase.work]
    omega
  | allocate phase =>
    have same : ({ s with nextId := s.nextId + 1 } : Session).work u = s.work u := rfl
    simp only [Tunnel.work, phase, Phase.work, same]
    omega
  | insert id phase =>
    have limbo := limbo_insert_le s id
    have inboxes := inboxWork_insert s id
    have outgoing : (s.insert id).outgoing u = s.outgoing u := rfl
    have reader : (s.insert id).reader = s.reader := rfl
    simp only [Tunnel.work, phase, Phase.work, Session.work, Session.load, inboxes, outgoing, reader]
    omega
  | announce stream phase did =>
    have more := costs _ _ did
    have cost : (Frame.control (s.arena stream).id .opening).cost = carriage + (notice + 2) := rfl
    simp only [Tunnel.work, phase, Phase.work, more, cost, work_next]
    omega
  | announceFails stream phase =>
    simp only [Tunnel.work, phase, Phase.work]
    omega
  | closeFails stream phase =>
    simp only [Tunnel.work, phase, Phase.work, work_hangUp]
    omega
  | grantFails stream _ _ granting =>
    simp only [Tunnel.work, granting, Downlink.work]
    omega
  | giveUp stream phase =>
    have less := work_remove_le s u (s.arena stream).id
    simp only [Tunnel.work, phase, Phase.work, work_hangUp]
    omega
  | greeting stage next stream phase _ did kept =>
    have spent := (sendStep_move did).tires costs
    cases next with
    | broken => exact absurd rfl kept
    | sent =>
      simp only [Tunnel.greeted, Tunnel.work, phase, Phase.work, Uplink.work, Sending.work] at spent ⊢
      omega
    | acquire | queue =>
      simp only [Tunnel.greeted, Tunnel.work, phase, Phase.work] at spent ⊢
      omega
  | rejected stage stream phase _ did =>
    have spent := (sendStep_move did).tires costs
    simp only [Tunnel.work, phase, Phase.work, work_hangUp]
    omega
  | closed stream phase _ did =>
    have more := costs _ _ did
    simp only [Tunnel.work, phase, Phase.work, work_hangUp, more, control_close_cost]
    omega
  | uplinkSend stage next stream sending _ did =>
    have spent := (sendStep_move did).tires costs
    have after := work_after_le next
    have before : t.uplink.work = stage.work := by
      rw [sending]
      rfl
    simp only [Tunnel.work]
    omega
  | recv stream chunk _ mine waiting did =>
    have less := inboxWork_take (known stream mine) did
    have out := take_out did
    have reader := (quiet_take did).reader
    have outgoing : s'.outgoing u = s.outgoing u := outgoing_same out (take_fed did)
    have limbo : s'.limbo = s.limbo := by
      obtain ⟨⟨first, inbox⟩, -, same⟩ := Option.map_eq_some_iff.mp did
      cases same
      rfl
    simp only [Tunnel.work, waiting, Downlink.work, Session.work, Session.load, outgoing, reader, limbo,
      showing] at less ⊢
    omega
  | recvEnds stream _ _ waiting =>
    simp only [Tunnel.work, waiting, Downlink.work]
    omega
  | write stream count rest size _ _ writing some within =>
    simp only [Tunnel.work, writing, Downlink.work, List.length_drop]
    omega
  | wrote stream size _ _ writing =>
    have next : (if grantThreshold ≤ (t.pending + size) % 2 ^ 32 then Downlink.granting
        else .waiting).work ≤ notice + 3 := by
      split
      · exact Nat.le_refl _
      · simp [Downlink.work]
    have before : t.downlink.work = notice + 4 := by
      rw [writing]
      simp [Downlink.work]
    simp only [Tunnel.work]
    omega
  | grant stream _ _ granting did =>
    have more := costs _ _ did
    simp only [Tunnel.work, granting, Downlink.work, more, grant_cost]
    omega
  | shutdownDone unwritten _ shutting =>
    simp only [Tunnel.work, shutting, Downlink.work]
    omega
  | leave stream running =>
    have less := work_remove_le s u (s.arena stream).id
    simp only [Tunnel.work, running, Phase.work]
    omega

/-- The reader is somewhere else, and nothing else has happened. -/
def Session.goes (s : Session) (r : Reader) : Session := { s with reader := r }

theorem work_goes (s u : Session) (r : Reader) : (s.goes r).work u + s.reader.work = s.work u + r.work := by
  have outgoing : (s.goes r).outgoing u = s.outgoing u := rfl
  have load : (s.goes r).load = r.work + s.limbo + s.inboxWork := rfl
  simp only [Session.work, outgoing, load]
  simp only [Session.load]
  omega

/-- A payload is put into an inbox. -/
def Session.puts (s : Session) (stream : Nat) (body : Bytes) : Session :=
  s.modify stream fun st => { st with inbox := (s.arena stream).inbox.push body }

theorem work_push (s u : Session) (known : n < s.created) (body : Bytes) :
    (s.puts n body).work u = s.work u + showing body := by
  have changed : (s.puts n body).inboxWork + (s.arena n).work =
      s.inboxWork + ({ s.arena n with inbox := (s.arena n).inbox.push body } : Stream).work :=
    inboxWork_changed known _
  have more : ({ s.arena n with inbox := (s.arena n).inbox.push body } : Stream).work =
      (s.arena n).work + showing body := by
    simp [Stream.work]
  have load : (s.puts n body).load = s.reader.work + s.limbo + (s.puts n body).inboxWork := rfl
  have outgoing : (s.puts n body).outgoing u = s.outgoing u := rfl
  simp only [Session.work, load, outgoing]
  simp only [Session.load]
  omega

theorem work_insert_le (s u : Session) (id : UInt32) : (s.insert id).work u ≤ s.work u + 1 := by
  have limbo := limbo_insert_le s id
  have inboxes := inboxWork_insert s id
  have outgoing : (s.insert id).outgoing u = s.outgoing u := rfl
  have reader : (s.insert id).reader = s.reader := rfl
  simp only [Session.work, Session.load, inboxes, outgoing, reader]
  omega

theorem work_removeAndClose_le (s u : Session) (id : UInt32) : (s.removeAndClose id).work u ≤ s.work u + 1 := by
  have limbo := limbo_removeAndClose_le s id
  have same : (s.removeAndClose id).outgoing u = s.outgoing u :=
    outgoing_same (removeAndClose_out s id) (removeAndClose_fed s id)
  have inboxes := inboxWork_removeAndClose s id
  have reader := (quiet_removeAndClose s id).reader
  simp only [Session.work, Session.load, same, inboxes, reader]
  omega

/-- Whatever the tasks of a session do, there is less to do behind it. The keepalive
is the exception: it is answered by a frame that asks for the same. -/
theorem step_tires {act : Session.Act} (live : Live s) (wired : Wired s) (carries : Carries u s)
    (echoes : s.reader ≠ .echo) (tasks : act.isLive = true) (other : act ≠ .feed)
    (stepped : s.step act = some s') : s'.work u < s.work u := by
  have alive := live.reader
  have idle : Reader.idle.work = 0 := rfl
  cases step_move stepped with
  | short | heard | lapse | writerEnds | readerAborted | shutdownClear | shutdownAbort => cases tasks
  | admits id reading =>
    have inserted := work_insert_le s u id
    have moved := work_goes (s.insert id) u .idle
    have before : (s.insert id).reader.work = 2 := congrArg Reader.work reading
    show ((s.insert id).goes .idle).work u < s.work u
    omega
  | admitsNobody id reading =>
    have inserted := work_insert_le s u id
    have moved := work_goes (s.insert id) u .idle
    have before : (s.insert id).reader.work = 2 := congrArg Reader.work reading
    have closed : (((s.insert id).goes .idle).modify s.created fun st =>
        { st with inbox := st.inbox.close }).work u = ((s.insert id).goes .idle).work u :=
      work_same rfl rfl rfl rfl (inboxWork_modify _ _ _ rfl)
    show (((s.insert id).goes .idle).modify s.created fun st => { st with inbox := st.inbox.close }).work u < s.work u
    omega
  | delivers id stream body reading =>
    have pushed := work_push s u (wired.offers id stream body reading).1 body
    have moved := work_goes (s.puts stream body) u .idle
    have before : (s.puts stream body).reader.work = showing body + 1 := congrArg Reader.work reading
    show ((s.puts stream body).goes .idle).work u < s.work u
    omega
  | drops id stream body reading =>
    have moved := work_goes s u .idle
    have before : s.reader.work = showing body + 1 := congrArg Reader.work reading
    show (s.goes .idle).work u < s.work u
    omega
  | overflows id stream body reading =>
    have moved := work_goes s u (.overflow id stream)
    have before : s.reader.work = body.length + (notice + 3) + 1 := by
      rw [reading, Reader.work]
      omega
    have after : Reader.work (.overflow id stream) = notice + 3 := rfl
    show (s.goes (.overflow id stream)).work u < s.work u
    omega
  | evicts id stream reading =>
    have removed := work_removeAndClose_le s u id
    have moved := work_goes (s.removeAndClose id) u (.refuse id (some stream))
    have before : (s.removeAndClose id).reader.work = notice + 3 :=
      congrArg Reader.work ((quiet_removeAndClose s id).reader.trans reading)
    have after : Reader.work (.refuse id (some stream)) = notice + 1 := rfl
    show ((s.removeAndClose id).goes (.refuse id (some stream))).work u < s.work u
    omega
  | dies reading | ends reading =>
    rw [reading] at alive
    cases alive
  | replies frame reading did =>
    have more := work_enqueue live carries did
    rename_i queued
    have moved := work_goes queued u .idle
    rw [(quiet_enqueue did).reader] at moved
    have cost : frame.cost + 1 = s.reader.work := by
      cases stands : s.reader with
      | echo => exact absurd stands echoes
      | refuse id stream =>
        rw [stands] at reading
        cases reading
        rfl
      | _ =>
        rw [stands] at reading
        cases reading
    show (queued.goes .idle).work u < s.work u
    omega
  | replyFails frame _ dead =>
    have opened := live.opened
    rw [dead] at opened
    cases opened
  | takeBatch count =>
    obtain ⟨⟨-, some, within, -⟩, -⟩ := Option.ite_none_right_eq_some.mp stepped
    have room : count ≤ s.out.accepted.length - s.out.taken := Nat.le_trans within (Nat.min_le_right _ _)
    have less : s.out.accepted.length - (s.out.advance count).taken + count =
        s.out.accepted.length - s.out.taken := by
      simp only [Channel.advance, Channel.len]
      omega
    show ((s.out.accepted.drop u.log.length).map Frame.work).sum +
      (s.out.accepted.length - s.fed) * (2 * maxRecord + 1) +
        (s.out.accepted.length - (s.out.advance count).taken) + s.load < s.work u
    simp only [Session.work, Session.outgoing]
    omega
  | feed => exact absurd rfl other
  | release some =>
    have outgoing : ({ s with limbo := s.limbo - 1, budget := s.budget + 1 } : Session).outgoing u =
        s.outgoing u := rfl
    have load : ({ s with limbo := s.limbo - 1, budget := s.budget + 1 } : Session).load + 1 = s.load := by
      have inboxes : ({ s with limbo := s.limbo - 1, budget := s.budget + 1 } : Session).inboxWork =
        s.inboxWork := rfl
      simp only [Session.load, inboxes]
      omega
    simp only [Session.work, outgoing]
    omega

/-- A frame fed has its bytes in the cable. -/
theorem feed_tires {transport : Transport} {c c' : Cable} {took : Bool} (live : Live s)
    (there : s.out.accepted[s.fed]? = some frame) (did : c.feed transport frame = some (c', took)) :
    ({ s with fed := s.fed + 1 } : Session).work u + c'.work < s.work u + c.work := by
  obtain ⟨room, did⟩ := Option.ite_none_right_eq_some.mp did
  have proper := live.frames frame (List.mem_of_getElem? there)
  rw [encode_seals proper.sealable] at did
  cases did
  have within : s.fed < s.out.accepted.length := (List.getElem?_eq_some_iff.mp there).1
  have size : (record transport c.encoder.nonce frame).length ≤ maxRecord := by
    have small := proper.small
    rw [record_length, Frame.encode_length, maxRecord]
    omega
  have unfed : s.out.accepted.length - s.fed = (s.out.accepted.length - (s.fed + 1)) + 1 := by omega
  have load : ({ s with fed := s.fed + 1 } : Session).load = s.load := rfl
  simp only [Session.work, load, Session.outgoing, unfed, Nat.add_mul, Nat.one_mul, Cable.work,
    List.length_append]
  omega

theorem onCable_tires {transport : Transport} {c c' : Cable} {act : Session.Act} (live : Live s)
    (wired : Wired s) (carries : Carries u s) (conveys : c.Conveys transport s u) (echoes : s.reader ≠ .echo)
    (did : s.onCable transport c act = some (c', s')) : s'.work u + c'.work < s.work u + c.work := by
  obtain ⟨tasks, stepped, -⟩ := Session.onCable_step live conveys did
  by_cases fed : act = .feed
  · subst fed
    obtain ⟨frame, there, did⟩ := Option.bind_eq_some_iff.mp did
    obtain ⟨⟨cable, took⟩, fed, did⟩ := Option.bind_eq_some_iff.mp did
    obtain ⟨session, -, same⟩ := Option.map_eq_some_iff.mp did
    cases same
    cases step_move stepped with
    | feed => exact feed_tires live there fed
  · have plain (did : (if act.isLive then (s.step act).map (c, ·) else none) = some (c', s')) :
        c' = c := by
      obtain ⟨-, did⟩ := Option.ite_none_right_eq_some.mp did
      obtain ⟨session, -, same⟩ := Option.map_eq_some_iff.mp did
      cases same
      rfl
    have same : c' = c := by
      cases act with
      | feed => exact absurd rfl fed
      | takeBatch count =>
        obtain ⟨-, did⟩ := Option.ite_none_right_eq_some.mp did
        obtain ⟨session, -, same⟩ := Option.map_eq_some_iff.mp did
        cases same
        rfl
      | _ => exact plain did
    have spent := step_tires (u := u) live wired carries echoes tasks fed stepped
    rw [same]
    omega

theorem write_tires {c c' : Cable} {count : Nat} (wrote : c.write count = some c') : c'.work < c.work := by
  obtain ⟨⟨some, within⟩, same⟩ := Option.ite_none_right_eq_some.mp wrote
  cases same
  simp only [Cable.work, List.length_drop, List.length_append, List.length_take]
  omega

theorem arrive_tires {c c' : Cable} {count : Nat} (came : c.arrive count = some c') : c'.work < c.work := by
  obtain ⟨⟨some, within⟩, same⟩ := Option.ite_none_right_eq_some.mp came
  cases same
  simp only [Cable.work, List.length_drop]
  omega

theorem next_work {transport : Transport} {c c' : Cable} {got : Option Bytes}
    (came : c.next transport = some (c', got)) : c'.work = c.work := by
  unfold Cable.next at came
  split at came <;> cases came <;> rfl

theorem atCable_work {transport : Transport} {c c' : Cable} (did : u.atCable transport c = some (c', u')) :
    c'.work = c.work := by
  obtain ⟨-, did⟩ := Option.ite_none_right_eq_some.mp did
  obtain ⟨⟨taken, got⟩, came, did⟩ := Option.bind_eq_some_iff.mp did
  obtain ⟨session, -, same⟩ := Option.map_eq_some_iff.mp did
  cases same
  exact next_work came

/-- To hear a frame takes what has been set aside for it, and leaves its bytes to
nobody. -/
theorem Heard.tires (did : Heard u frame u') (idle : u.reader = .idle) (stream : frame.id ≠ 0)
    (next : u.nextFrom s = some frame) :
    s.work u' + u'.work s < s.work u + u.work s := by
  obtain ⟨waits, there⟩ := nextFrom_eq next
  have within := (List.getElem?_eq_some_iff.mp there).1
  have unheard : (s.out.accepted.drop u.log.length).map Frame.work =
      frame.work :: (s.out.accepted.drop u'.log.length).map Frame.work := by
    have head := (List.getElem?_eq_some_iff.mp there).2
    rw [List.drop_eq_getElem_cons within, head, List.map_cons, did.log, List.length_append, List.length_singleton]
  have theirs : s.work u = frame.work + s.work u' := by
    simp only [Session.work, Session.outgoing, unheard, List.sum_cons]
    omega
  have outgoing : u'.outgoing s = u.outgoing s := outgoing_same did.out did.fed
  have before : u.load = u.limbo + u.inboxWork := by
    simp only [Session.load, idle, Reader.work]
    omega
  suffices less : u'.load < u.load + frame.work by
    simp only [Session.work, outgoing] at theirs ⊢
    omega
  have room : 2 ≤ notice := Nat.le_add_left _ _
  cases did with
  | keepalive zero => exact absurd zero stream
  | opens _ kind =>
    have cost : frame.work = notice + 2 := by rw [Frame.work, kind]
    show 2 + u.limbo + u.inboxWork < u.load + frame.work
    omega
  | overBudget _ kind =>
    have cost : frame.work = notice + 2 := by rw [Frame.work, kind]
    show notice + 1 + u.limbo + u.inboxWork < u.load + frame.work
    omega
  | data aim _ kind =>
    have cost : frame.work = frame.payload.length + notice + 5 := by rw [Frame.work, kind]
    show frame.payload.length + notice + 4 + u.limbo + u.inboxWork < u.load + frame.work
    omega
  | grants aim _ kind =>
    have cost : frame.work = 2 := by rw [Frame.work, kind]
    have inboxes := inboxWork_modify ({ u with log := u.log ++ [frame] } : Session) aim
      (fun st => { st with credit := st.credit.addPermits (ByteOrder.ofBe frame.payload) }) rfl
    show u.reader.work + u.limbo + Session.inboxWork _ < u.load + frame.work
    rw [inboxes, cost]
    show u.load < u.load + 2
    omega
  | closes _ kind =>
    have cost : frame.work = 2 := by rw [Frame.work, kind]
    have limbo : (({ u with log := u.log ++ [frame] } : Session).removeAndClose frame.id).limbo ≤ u.limbo + 1 :=
      limbo_removeAndClose_le _ frame.id
    have inboxes : (({ u with log := u.log ++ [frame] } : Session).removeAndClose frame.id).inboxWork =
      u.inboxWork := inboxWork_removeAndClose _ frame.id
    have reader : (({ u with log := u.log ++ [frame] } : Session).removeAndClose frame.id).reader.work = 0 :=
      congrArg Reader.work
        ((quiet_removeAndClose ({ u with log := u.log ++ [frame] } : Session) frame.id).reader.trans idle)
    rw [Session.load, inboxes, reader, cost, before]
    omega
  | ignores =>
    have some : 0 < frame.work := by
      unfold Frame.work
      split <;> omega
    show u.load < u.load + frame.work
    omega

/-! The keepalive would be answered for ever. Neither end begins it, as long as the
counter of ids has not come round to its channel. -/

/-- Nothing is queued, or about to be, on the keepalive's channel. -/
structure Session.Addressed (s : Session) : Prop where
  frames : ∀ frame ∈ s.out.accepted, frame.id ≠ 0
  echoes : s.reader ≠ .echo
  names : s.reader.names ≠ some 0

theorem Session.Addressed.step {act : Session.Act} (addressed : s.Addressed) (tasks : act.isLive = true)
    (stepped : s.step act = some s') : s'.Addressed := by
  refine ⟨fun frame member => ?_, fun echo => ?_, fun zero => addressed.names (step_names stepped tasks zero)⟩
  · obtain old | answer := (step_adds stepped).member member
    · exact addressed.frames frame old
    · intro zero
      cases stands : s.reader with
      | echo => exact addressed.echoes stands
      | refuse id stream =>
        rw [stands] at answer
        cases answer
        have none := addressed.names
        rw [stands] at none
        exact none (congrArg some zero)
      | _ =>
        rw [stands] at answer
        cases answer
  · cases step_move stepped with
    | short | heard | lapse | writerEnds | readerAborted | shutdownClear | shutdownAbort => cases tasks
    | takeBatch | feed | release => exact addressed.echoes echo
    | _ => cases echo

theorem Session.Addressed.hears (addressed : s.Addressed) (idle : s.reader = .idle) (did : Heard s frame s')
    (stream : frame.id ≠ 0) : s'.Addressed := by
  refine ⟨?_, fun echo => ?_, fun zero => (did.names idle zero).2 rfl⟩
  · rw [did.out]
    exact addressed.frames
  · cases did with
    | keepalive zero => exact stream zero
    | closes =>
      rw [(quiet_removeAndClose _ _).reader] at echo
      exact addressed.echoes echo
    | grants | ignores => exact addressed.echoes echo
    | _ => cases echo

theorem Session.Addressed.user (addressed : s.Addressed) {sort : Frame → Prop} (adds : Adds sort s s')
    (reader : s'.reader = s.reader) (named : ∀ frame, sort frame → frame.id ≠ 0) : s'.Addressed := by
  refine ⟨fun frame member => ?_, ?_, ?_⟩
  · obtain old | new := adds.member member
    · exact addressed.frames frame old
    · exact named frame new
  · rw [reader]
    exact addressed.echoes
  · rw [reader]
    exact addressed.names

/-- Both ends, while the counter has not come round. -/
def Pair.Addressed (p : Pair) : Prop :=
  p.near.session.nextId < 2 ^ 32 → p.near.session.Addressed ∧ p.far.session.Addressed

/-- The counter does not go back. -/
theorem PairMove.nextId {p q : Pair} {act : PairAct} (move : PairMove p act q) :
    p.near.session.nextId ≤ q.near.session.nextId := by
  cases move with
  | nearLink act tasks did => exact Nat.le_of_eq (step_nextId did).symm
  | nearTunnel name act did => exact did.nextId
  | nearHears frame next idle did stepped =>
    obtain ⟨session, read, same⟩ := Option.map_eq_some_iff.mp stepped
    cases same
    exact Nat.le_of_eq (step_nextId read).symm
  | _ => exact Nat.le_refl _

theorem Pair.Addressed.start (nearStreams farStreams : Nat) : (Pair.start nearStreams farStreams).Addressed := by
  have fresh (maxStreams : Nat) (onOpen : Bool) : (Session.start maxStreams onOpen).Addressed :=
    ⟨fun _ member => (List.not_mem_nil member).elim, by simp [Session.start], by simp [Session.start, Reader.names]⟩
  exact fun _ => ⟨fresh nearStreams false, fresh farStreams true⟩

theorem Pair.Addressed.step {p q : Pair} {act : PairAct} (addressed : p.Addressed) (whole : p.Whole)
    (stepped : p.step act = some q) : q.Addressed := by
  have move := Pair.step_move whole.joined stepped
  intro low
  have before := Nat.lt_of_le_of_lt move.nextId low
  have ids := whole.ids before
  obtain ⟨near, far⟩ := addressed before
  cases move with
  | nearLink act tasks did => exact ⟨near.step tasks did, far⟩
  | nearTunnel name act did =>
    refine ⟨near.user (did.adds (whole.joined.sound.fits name)) did.quiet.reader ?_, far⟩
    rintro frame ⟨n, own, about, -⟩
    rw [about]
    exact ids.nonzero (whole.joined.sound.known own)
  | farLink act tasks did => exact ⟨near, far.step tasks did⟩
  | farUser act did =>
    refine ⟨near, far.user did.adds did.quiet.1.reader ?_⟩
    rintro frame ⟨-, n, known, about⟩
    rw [about]
    exact whole.nonzero.streams n known
  | nearHears frame next idle did =>
    exact ⟨near.hears idle did (far.frames frame (List.mem_of_getElem? (nextFrom_eq next).2)), far⟩
  | farHears frame next idle did =>
    exact ⟨near, far.hears idle did (near.frames frame (List.mem_of_getElem? (nextFrom_eq next).2))⟩

/-! Only finitely many tunnels have been begun, and only they have anything to do. -/

/-- The tunnel, or the far end's stream, whose users take the step. -/
def LinkAct.name : LinkAct → Option Nat
  | .near (.tunnel name _) => some name
  | .far (.send stream _) | .far (.proceed stream) | .far (.recv stream) | .far (.flushCredit stream _ _)
  | .far (.shutdown stream _) | .far (.drop stream _) => some stream
  | _ => none

/-- No other tunnel has been begun, and on no other stream has the far end sent. -/
def LinkPair.Within (names : Finset Nat) (l : LinkPair) : Prop :=
  ∀ name, name ∉ names → l.near.tunnels name = {} ∧ l.far.sending name = .sent

variable {up down : Transport} {l next : LinkPair} {act : LinkAct} {names : Finset Nat} {name : Nat}

theorem AcceptorMove.elsewhere {a b : Acceptor} {act : AcceptorAct} (move : AcceptorMove a act b)
    (other : (LinkAct.far act).name ≠ some name) : b.sending name = a.sending name := by
  cases move with
  | send stream | proceed stream | drop stream =>
    exact Function.update_of_ne (fun same => other (congrArg some same.symm)) _ _
  | _ => rfl

theorem LinkPair.step_elsewhere (stepped : l.step up down act = some next) (other : act.name ≠ some name) :
    next.near.tunnels name = l.near.tunnels name ∧ next.far.sending name = l.far.sending name := by
  cases act with
  | near act =>
    cases act with
    | link act =>
      obtain ⟨⟨cable, session⟩, -, rfl⟩ := Option.map_eq_some_iff.mp stepped
      exact ⟨rfl, rfl⟩
    | tunnel mover act =>
      obtain ⟨near, moved, rfl⟩ := Option.map_eq_some_iff.mp stepped
      obtain ⟨⟨session, tunnel⟩, -, rfl⟩ := Option.map_eq_some_iff.mp moved
      exact ⟨Proxy.put_other _ (fun same => other (congrArg some same.symm)) _ _, rfl⟩
  | far act =>
    cases act with
    | link act =>
      obtain ⟨⟨cable, session⟩, -, rfl⟩ := Option.map_eq_some_iff.mp stepped
      exact ⟨rfl, rfl⟩
    | _ =>
      obtain ⟨far, moved, rfl⟩ := Option.map_eq_some_iff.mp stepped
      exact ⟨rfl, (acceptorStep_move (by simp) moved).elsewhere other⟩
  | nearHears | farHears =>
    obtain ⟨⟨cable, session⟩, -, rfl⟩ := Option.map_eq_some_iff.mp stepped
    exact ⟨rfl, rfl⟩
  | _ =>
    obtain ⟨-, did⟩ := Option.ite_none_right_eq_some.mp stepped
    obtain ⟨cable, -, rfl⟩ := Option.map_eq_some_iff.mp did
    exact ⟨rfl, rfl⟩

/-- A tunnel that has not been begun does nothing unasked. -/
theorem Move.begun {act : TunnelAct} (move : Move s {} act s' t') : act.isOwn = false := by
  cases move with
  | begin | read | readEnds | writeFails => rfl
  | reserve phase | refused phase | allocate phase | insert _ phase | announce _ phase
  | announceFails _ phase | giveUp _ phase | greeting _ _ _ phase | rejected _ _ phase | closed _ phase
  | closeFails _ phase => cases phase
  | uplinkSend _ _ _ sending => cases sending
  | recv _ _ running | recvEnds _ running | write _ _ _ _ running | wrote _ _ running | grant _ running
  | grantFails _ running | shutdownDone _ running | leave _ running => cases running

theorem LinkPair.Within.named (within : l.Within names) (own : act.isOwn = true)
    (stepped : l.step up down act = some next) (mine : act.name = some name) : name ∈ names := by
  by_contra outside
  obtain ⟨blank, sent⟩ := within name outside
  cases act with
  | near act =>
    cases act with
    | link act => cases mine
    | tunnel mover act =>
      cases mine
      obtain ⟨near, moved, -⟩ := Option.map_eq_some_iff.mp stepped
      obtain ⟨⟨session, tunnel⟩, did, -⟩ := Option.map_eq_some_iff.mp moved
      rw [blank] at did
      exact absurd own (by rw [LinkAct.isOwn, (tunnelStep_move did).begun]; simp)
  | far act =>
    cases act with
    | proceed stream =>
      cases mine
      obtain ⟨far, moved, -⟩ := Option.map_eq_some_iff.mp stepped
      obtain ⟨-, did⟩ := Option.ite_none_right_eq_some.mp moved
      rw [sent] at did
      cases did
    | link act => cases mine
    | _ => cases own
  | _ => cases mine

theorem LinkPair.Within.keeps (within : l.Within names) (own : act.isOwn = true)
    (stepped : l.step up down act = some next) : next.Within names := by
  intro name outside
  have other : act.name ≠ some name := fun mine => outside (within.named own stepped mine)
  obtain ⟨tunnels, sending⟩ := LinkPair.step_elsewhere stepped other
  rw [tunnels, sending]
  exact within name outside

/-- The names a run speaks of. -/
def LinkAct.named (actions : List LinkAct) : Finset Nat := (actions.filterMap LinkAct.name).toFinset

/-- A tunnel draws the id it was still to draw, and no more are begun. -/
theorem Move.unnumbered {act : TunnelAct} (move : Move s t act s' t') (own : act.isOwn = true) :
    s'.nextId + t'.phase.unnumbered ≤ s.nextId + t.phase.unnumbered := by
  have drawn (counter : s'.nextId = s.nextId) (less : t'.phase.unnumbered ≤ t.phase.unnumbered) :
      s'.nextId + t'.phase.unnumbered ≤ s.nextId + t.phase.unnumbered := by
    rw [counter]
    exact Nat.add_le_add_left less _
  cases move with
  | begin => cases own
  | allocate phase =>
    rw [phase]
    exact Nat.le_refl _
  | reserve phase did =>
    obtain ⟨-, same⟩ := Option.ite_none_left_eq_some.mp did
    cases same
    exact drawn rfl (by rw [phase]; exact Nat.le_refl _)
  | announce stream phase did | closed stream phase _ did =>
    have counter := enqueue_nextId did
    exact drawn counter (Nat.zero_le _)
  | giveUp stream | leave stream => exact drawn (remove_nextId s _) (Nat.zero_le _)
  | greeting stage next stream phase _ did =>
    refine drawn (sendStep_created did).2 ?_
    cases next <;> exact Nat.zero_le _
  | rejected stage stream phase _ did =>
    have counter := (sendStep_created did).2
    exact drawn counter (Nat.zero_le _)
  | uplinkSend stage next stream _ _ did => exact drawn (sendStep_created did).2 (Nat.le_refl _)
  | recv stream chunk _ _ _ did =>
    obtain ⟨⟨first, inbox⟩, -, same⟩ := Option.map_eq_some_iff.mp did
    cases same
    exact drawn rfl (Nat.le_refl _)
  | grant stream _ _ _ did => exact drawn (enqueue_nextId did) (Nat.le_refl _)
  | refused | insert | announceFails | closeFails => exact drawn rfl (Nat.zero_le _)
  | _ => exact drawn rfl (Nat.le_refl _)

theorem LinkPair.run_elsewhere {actions : List LinkAct} (ran : run (LinkPair.step up down) l actions = some next)
    (other : ∀ act ∈ actions, act.name ≠ some name) :
    next.near.tunnels name = l.near.tunnels name ∧ next.far.sending name = l.far.sending name := by
  induction actions generalizing l with
  | nil =>
    cases ran
    exact ⟨rfl, rfl⟩
  | cons act rest ih =>
    obtain ⟨mid, stepped, later⟩ := run_cons.mp ran
    obtain ⟨tunnels, sending⟩ := LinkPair.step_elsewhere stepped (other act (by simp))
    rw [← tunnels, ← sending]
    exact ih later fun act member => other act (by simp [member])

/-- Nobody has a part in a run who is not named in it. -/
theorem LinkPair.run_within {nearStreams farStreams : Nat} {actions : List LinkAct}
    (ran : run (LinkPair.step up down) (.start nearStreams farStreams) actions = some l) :
    l.Within (LinkAct.named actions) := by
  intro name outside
  refine LinkPair.run_elsewhere ran fun act member mine => outside ?_
  exact List.mem_toFinset.mpr (List.mem_filterMap.mpr ⟨act, member, mine⟩)

/-- What is kept while nobody outside asks for anything. -/
structure LinkPair.Busy (up down : Transport) (names : Finset Nat) (l : LinkPair) : Prop where
  beneath : l.Beneath up down l.frames
  whole : l.frames.Whole
  addressed : l.frames.Addressed
  within : l.Within names

theorem work_heard (log : u'.log = u.log) : s.work u' = s.work u := by
  rw [Session.work, Session.outgoing, log]
  rfl

/-- Own steps do not raise what the counter can get to. -/
theorem LinkPair.Busy.countsTo (busy : l.Busy up down names)
    (downOpens : ∀ nonce plain, down.readMessage nonce (down.writeMessage nonce plain) = .ok plain)
    (own : act.isOwn = true) (stepped : l.step up down act = some next) : next.countsTo names ≤ l.countsTo names := by
  have joined := busy.whole.joined
  cases act with
  | near act =>
    cases act with
    | link act =>
      obtain ⟨⟨cable, session⟩, did, rfl⟩ := Option.map_eq_some_iff.mp stepped
      obtain ⟨-, moved, -⟩ := Session.onCable_step joined.nearLive busy.beneath.up did
      exact Nat.le_of_eq (congrArg (· + _) (step_nextId moved))
    | tunnel name act =>
      have mine := busy.within.named own stepped rfl
      obtain ⟨near, moved, rfl⟩ := Option.map_eq_some_iff.mp stepped
      obtain ⟨⟨session, tunnel⟩, did, rfl⟩ := Option.map_eq_some_iff.mp moved
      have drawn := (tunnelStep_move did).unnumbered own
      have others := sum_changed (f := fun other => (l.near.tunnels other).phase.unnumbered)
        (g := fun other => ((l.near.put name session tunnel).tunnels other).phase.unnumbered) mine
        fun other away => by rw [Proxy.put_other _ away]
      rw [Proxy.put_self] at others
      simp only [LinkPair.countsTo, Proxy.put_session]
      omega
  | far act =>
    cases act with
    | link act =>
      obtain ⟨⟨cable, session⟩, -, rfl⟩ := Option.map_eq_some_iff.mp stepped
      exact Nat.le_refl _
    | _ =>
      obtain ⟨far, -, rfl⟩ := Option.map_eq_some_iff.mp stepped
      exact Nat.le_refl _
  | nearHears =>
    obtain ⟨⟨cable, session⟩, did, rfl⟩ := Option.map_eq_some_iff.mp stepped
    obtain ⟨frame, -, moved, -⟩ := Session.atCable_step joined.farLive busy.beneath.down downOpens did
    exact Nat.le_of_eq (congrArg (· + _) (step_nextId moved))
  | farHears =>
    obtain ⟨⟨cable, session⟩, -, rfl⟩ := Option.map_eq_some_iff.mp stepped
    exact Nat.le_refl _
  | _ =>
    obtain ⟨-, did⟩ := Option.ite_none_right_eq_some.mp stepped
    obtain ⟨cable, -, rfl⟩ := Option.map_eq_some_iff.mp did
    exact Nat.le_refl _

section Opened
variable (upOpens : ∀ nonce plain, up.readMessage nonce (up.writeMessage nonce plain) = .ok plain)
  (downOpens : ∀ nonce plain, down.readMessage nonce (down.writeMessage nonce plain) = .ok plain)
include upOpens downOpens

/-- A step of the bytes keeps everything that the steps of the frames keep. -/
theorem LinkPair.Beneath.reaches (beneath : l.Beneath up down l.frames)
    (stepped : l.step up down act = some next) (inv : Pair → Prop) (holds : inv l.frames)
    (keeps : ∀ p act q, inv p → Pair.step p act = some q → inv q) :
    next.Beneath up down next.frames ∧ inv next.frames := by
  obtain ⟨acts, p, ran, -, after⟩ := linkPair_simulates (fun _ _ => True) upOpens downOpens l act next l.frames
    beneath (fun _ _ => trivial) stepped
  obtain rfl := after.frames
  exact ⟨after, run_preserves inv keeps holds ran⟩

theorem LinkPair.Busy.keeps (busy : l.Busy up down names) (own : act.isOwn = true)
    (stepped : l.step up down act = some next) :
    next.Busy up down names ∧ l.near.session.nextId ≤ next.near.session.nextId := by
  obtain ⟨beneath, whole, addressed, within⟩ := busy
  obtain ⟨after, whole', addressed', counts⟩ := beneath.reaches upOpens downOpens stepped
    (fun p => p.Whole ∧ p.Addressed ∧ l.near.session.nextId ≤ p.near.session.nextId)
    ⟨whole, addressed, Nat.le_refl _⟩ fun p act q kept stepped => ⟨kept.1.step stepped,
      kept.2.1.step kept.1 stepped, Nat.le_trans kept.2.2 (Pair.step_move kept.1.joined stepped).nextId⟩
  exact ⟨⟨after, whole', addressed', within.keeps own stepped⟩, counts⟩

/-- Whatever the two ends do unasked, there is less to do behind it. -/
theorem LinkPair.Busy.tires (busy : l.Busy up down names) (own : act.isOwn = true)
    (stepped : l.step up down act = some next) (low : next.near.session.nextId < 2 ^ 32) :
    next.work names < l.work names := by
  have counts := (busy.keeps upOpens downOpens own stepped).2
  obtain ⟨nearAddressed, farAddressed⟩ := busy.addressed (Nat.lt_of_le_of_lt counts low)
  have joined := busy.whole.joined
  have nearLive : Live l.near.session := joined.nearLive
  have farLive : Live l.far.session := joined.farLive
  have upward : l.up.Conveys up l.near.session l.far.session := busy.beneath.up
  have downward : l.down.Conveys down l.far.session l.near.session := busy.beneath.down
  have toNear : Carries l.near.session l.far.session := joined.toNear
  have toFar : Carries l.far.session l.near.session := joined.toFar
  simp only [LinkPair.work]
  cases act with
  | near act =>
    cases act with
    | link act =>
      obtain ⟨⟨cable, session⟩, did, rfl⟩ := Option.map_eq_some_iff.mp stepped
      obtain ⟨tasks, moved, -⟩ := Session.onCable_step nearLive upward did
      have spent := onCable_tires nearLive joined.sound.wired toFar upward nearAddressed.echoes did
      have theirs : l.far.session.work session = l.far.session.work l.near.session :=
        work_heard (extends_step moved tasks).log
      dsimp only
      omega
    | tunnel name act =>
      obtain ⟨near, moved, rfl⟩ := Option.map_eq_some_iff.mp stepped
      obtain ⟨⟨session, tunnel⟩, did, rfl⟩ := Option.map_eq_some_iff.mp moved
      have move := tunnelStep_move did
      have mine := busy.within.named own stepped rfl
      have spent := move.tires own (nearLive.costs toFar) fun n own => joined.sound.known own
      have theirs : l.far.session.work session = l.far.session.work l.near.session :=
        work_heard move.extends.log
      have others := sum_changed (f := fun other => (l.near.tunnels other).work)
        (g := fun other => ((l.near.put name session tunnel).tunnels other).work) mine
        fun other away => by rw [Proxy.put_other _ away]
      rw [Proxy.put_self] at others
      simp only [Proxy.put_session]
      omega
  | far act =>
    cases act with
    | link act =>
      obtain ⟨⟨cable, session⟩, did, rfl⟩ := Option.map_eq_some_iff.mp stepped
      obtain ⟨tasks, moved, -⟩ := Session.onCable_step farLive downward did
      have spent := onCable_tires farLive joined.wired toNear downward farAddressed.echoes did
      have theirs : l.near.session.work session = l.near.session.work l.far.session :=
        work_heard (extends_step moved tasks).log
      dsimp only
      omega
    | proceed stream =>
      obtain ⟨far, moved, rfl⟩ := Option.map_eq_some_iff.mp stepped
      have mine := busy.within.named own stepped rfl
      cases acceptorStep_move (by simp) moved with
      | proceed _ stage _ did =>
        have spent := did.tires (farLive.costs toNear)
        have theirs := work_heard (s := l.near.session) did.extends.log
        have others := sum_changed (f := fun other => (l.far.sending other).work)
          (g := fun other => (Function.update l.far.sending stream stage other).work) mine
          fun other away => by rw [Function.update_of_ne away]
        rw [Function.update_self] at others
        dsimp only
        omega
    | _ => cases own
  | nearWrites count | farWrites count =>
    obtain ⟨-, did⟩ := Option.ite_none_right_eq_some.mp stepped
    obtain ⟨cable, wrote, rfl⟩ := Option.map_eq_some_iff.mp did
    have spent := write_tires wrote
    dsimp only
    omega
  | nearReads count | farReads count =>
    obtain ⟨-, did⟩ := Option.ite_none_right_eq_some.mp stepped
    obtain ⟨cable, came, rfl⟩ := Option.map_eq_some_iff.mp did
    have spent := arrive_tires came
    dsimp only
    omega
  | nearHears =>
    obtain ⟨⟨cable, session⟩, did, rfl⟩ := Option.map_eq_some_iff.mp stepped
    obtain ⟨frame, fetched, moved, -⟩ := Session.atCable_step farLive downward downOpens did
    have member := List.mem_of_getElem? (nextFrom_eq fetched).2
    obtain ⟨idle, heard⟩ := recv_heard (farLive.frames frame member) moved
    have spent := heard.tires idle (farAddressed.frames frame member) fetched
    have same := atCable_work did
    dsimp only
    omega
  | farHears =>
    obtain ⟨⟨cable, session⟩, did, rfl⟩ := Option.map_eq_some_iff.mp stepped
    obtain ⟨frame, fetched, moved, -⟩ := Session.atCable_step nearLive upward upOpens did
    have member := List.mem_of_getElem? (nextFrom_eq fetched).2
    obtain ⟨idle, heard⟩ := recv_heard (nearLive.frames frame member) moved
    have spent := heard.tires idle (nearAddressed.frames frame member) fetched
    have same := atCable_work did
    dsimp only
    omega

theorem LinkPair.Busy.reached {nearStreams farStreams : Nat} {actions : List LinkAct}
    (ran : run (LinkPair.step up down) (.start nearStreams farStreams) actions = some l) :
    l.Busy up down (LinkAct.named actions) := by
  obtain ⟨acts, ran', beneath⟩ := LinkPair.run_frames upOpens downOpens ran
  obtain ⟨whole, addressed⟩ := run_preserves (fun p => Pair.Whole p ∧ Pair.Addressed p)
    (fun p act q kept stepped => ⟨kept.1.step stepped, kept.2.step kept.1 stepped⟩)
    ⟨.start nearStreams farStreams, .start nearStreams farStreams⟩ ran'
  exact ⟨beneath, whole, addressed, LinkPair.run_within ran⟩

theorem LinkPair.tires (names : Finset Nat) : Tires (LinkPair.step up down) (fun act => act.isOwn = true)
    (LinkPair.Busy up down names) (fun l => l.near.session.nextId < 2 ^ 32) (LinkPair.work names) where
  keeps _ _ _ busy own stepped := (busy.keeps upOpens downOpens own stepped).1
  before _ _ _ busy own stepped low :=
    Nat.lt_of_le_of_lt (busy.keeps upOpens downOpens own stepped).2 low
  spends _ _ _ busy own stepped low := busy.tires upOpens downOpens own stepped low

/-- No more ids are drawn than the tunnels that have been begun need. -/
theorem LinkPair.Busy.counts {actions : List LinkAct} (busy : l.Busy up down names)
    (own : ∀ act ∈ actions, LinkAct.isOwn act = true) (ran : run (LinkPair.step up down) l actions = some next) :
    next.near.session.nextId ≤ l.countsTo names := by
  have kept : next.Busy up down names ∧ next.countsTo names ≤ l.countsTo names := by
    have asked : Meets (LinkPair.step up down) (fun _ act => act.isOwn = true) l actions :=
      meets_of_mem fun act member _ => own act member
    refine run_preserves_where (fun m => LinkPair.Busy up down names m ∧ m.countsTo names ≤ l.countsTo names)
      ?_ ⟨busy, Nat.le_refl _⟩ asked ran
    rintro m act q ⟨busy, low⟩ own stepped
    exact ⟨(busy.keeps upOpens downOpens own stepped).1,
      Nat.le_trans (busy.countsTo downOpens own stepped) low⟩
  exact Nat.le_trans (Nat.le_add_right _ _) kept.2

end Opened

theorem LinkPair.stepIn_less (room : Nat) (up down : Transport) (l : LinkPair) (act : LinkAct) (next : LinkPair)
    (stepped : l.stepIn room up down act = some next) : l.step up down act = some next :=
  (Option.ite_none_right_eq_some.mp stepped).2

/-- Two joined ends come to rest, however small the sockets are. Whatever has happened,
if nobody outside asks for anything more, then whatever of their own work the tasks of
both ends, the tunnels and the sockets do first, they are through with what they can do
after a number of steps that can be counted beforehand; and there is a way to the end
of it. The ids must last for the tunnels that have been begun: an open that drew id 0
would be echoed from end to end for ever. -/
theorem links_come_to_rest {room nearStreams farStreams : Nat} {actions : List LinkAct}
    (upOpens : ∀ nonce plain, up.readMessage nonce (up.writeMessage nonce plain) = .ok plain)
    (downOpens : ∀ nonce plain, down.readMessage nonce (down.writeMessage nonce plain) = .ok plain)
    (ran : run (LinkPair.stepIn room up down) (.start nearStreams farStreams) actions = some l)
    (few : l.countsTo (LinkAct.named actions) < 2 ^ 32) :
    (∀ more q, (∀ act ∈ more, LinkAct.isOwn act = true) → run (LinkPair.stepIn room up down) l more = some q →
      more.length + q.work (LinkAct.named actions) ≤ l.work (LinkAct.named actions)) ∧
    ∃ more q, (∀ act ∈ more, LinkAct.isOwn act = true) ∧ run (LinkPair.stepIn room up down) l more = some q ∧
      Rests (LinkPair.stepIn room up down) (fun act => act.isOwn = true) q := by
  have less := LinkPair.stepIn_less room up down
  have busy := LinkPair.Busy.reached upOpens downOpens (run_widens less ran)
  have tires := (LinkPair.tires upOpens downOpens (LinkAct.named actions)).narrows less
  have low : ∀ more q, (∀ act ∈ more, LinkAct.isOwn act = true) →
      run (LinkPair.stepIn room up down) l more = some q → q.near.session.nextId < 2 ^ 32 :=
    fun more q own ran' => Nat.lt_of_le_of_lt (busy.counts upOpens downOpens own (run_widens less ran')) few
  exact ⟨fun more q own ran' => tires.length_le busy own ran' (low more q own ran'), tires.comes_to_rest busy low⟩

/-- A client has dialled in. -/
private def dialledIn : List LinkAct := [.near (.tunnel 0 (.begin (List.replicate 37 0)))]

/-- Its stream is opened, and the far end reads of it. -/
private def comesUp : List LinkAct :=
  List.replicate 6 (.near (.tunnel 0 .proceed)) ++
    [.near (.link (.takeBatch 2)), .near (.link .feed), .near (.link .feed), .nearWrites 20, .nearWrites 30,
      .farReads 1, .farReads 28, .nearWrites 39, .farHears, .far (.link .advance)]

theorem links_come_to_rest_dialled :
    ∃ l q, run (LinkPair.stepIn 60 .tagging .tagging) (.start 1 1) dialledIn = some l ∧
      run (LinkPair.stepIn 60 .tagging .tagging) l comesUp = some q ∧
      comesUp.length + q.work (LinkAct.named dialledIn) ≤ l.work (LinkAct.named dialledIn) ∧
      ∃ more r, (∀ act ∈ more, LinkAct.isOwn act = true) ∧
        run (LinkPair.stepIn 60 .tagging .tagging) l more = some r ∧
          Rests (LinkPair.stepIn 60 .tagging .tagging) (fun act => act.isOwn = true) r := by
  have checked : ((run (LinkPair.stepIn 60 .tagging .tagging) (.start 1 1) dialledIn).any fun l => decide (
      l.countsTo (LinkAct.named dialledIn) < 2 ^ 32 ∧
        (run (LinkPair.stepIn 60 .tagging .tagging) l comesUp).isSome = true)) = true := by decide +kernel
  have own : ∀ act ∈ comesUp, LinkAct.isOwn act = true := by decide
  obtain ⟨l, ran, few, goes⟩ := run_reaches checked
  obtain ⟨q, ran'⟩ := Option.isSome_iff_exists.mp goes
  obtain ⟨spends, rests⟩ := links_come_to_rest Transport.tagging_opens Transport.tagging_opens ran few
  exact ⟨l, q, ran, ran', spends comesUp q own ran', rests⟩

end DshProxy.Mux

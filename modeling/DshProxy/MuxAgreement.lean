import DshProxy.MuxView

/-! Which streams are live, as the two ends of a link see it. Either end drops a
stream on its own and owes the other a CLOSE; where every one of them gets into
its outbox the ends agree again as soon as nothing is on its way. `close_stream`
does not wait for a place in the outbox, and there one can be lost. -/
namespace DshProxy.Mux
open Sync Wire Transitions Handshake

variable {s s' : Session} {p q : Pair} {id : UInt32}

/-- No open and no close is in progress. -/
def Phase.isSettled : Phase → Bool
  | .opening _ | .closing => false
  | _ => true

/-- Both outboxes and the link are empty, both readers wait for a frame, and no
tunnel is opening or closing its stream. Sends may be under way. -/
structure Pair.AtRest (p : Pair) : Prop where
  toFar : p.toFar = []
  toNear : p.toNear = []
  nearIdle : p.near.session.reader = .idle
  farIdle : p.far.session.reader = .idle
  settled : ∀ name, (p.near.tunnels name).phase.isSettled = true

theorem Pair.AtRest.agree (rest : p.AtRest) (agree : (p.view id).Agree) :
    p.near.session.streams id ≠ none ↔ p.far.session.streams id ≠ none := by
  have unsettled {sort : Phase → Bool}
      (moving : ∀ phase, sort phase = true → phase.isSettled = false) : ¬ p.near.Serves id sort := by
    rintro ⟨name, n, -, -, stage⟩
    have settled := rest.settled name
    rw [moving _ stage] at settled
    cases settled
  have announcing : ¬ p.near.Serves id Phase.announces := unsettled fun phase stage => by
    cases phase <;> first
      | rfl
      | cases stage
  have closing : ¬ p.near.Serves id Phase.isClosing := unsettled fun phase stage => by
    cases phase <;> first
      | rfl
      | cases stage
  have settled := agree.settled
    (by simp [Pair.view, rest.toFar, underway_nil, closing, Session.Refuses, rest.nearIdle])
    (by simp [Pair.view, rest.toNear, underway_nil, Session.Refuses, rest.farIdle])
  simpa [Pair.view, rest.toFar, underway_nil, announcing, rest.farIdle] using settled

theorem start_agrees (nearStreams farStreams : Nat) (id : UInt32) :
    ((Pair.start nearStreams farStreams).view id).Agree := by
  refine ⟨fun has => absurd rfl has, ?_, ?_, ?_⟩
  · rintro (⟨name, n, own, -⟩ | opening | admits | has)
    · cases own
    · exact absurd opening underway_nil
    · cases admits
    · exact absurd rfl has
  · intro _ has
    exact has rfl
  · rintro (closing | ⟨stream, reading⟩)
    · exact absurd closing underway_nil
    · cases reading

/-- Two joined ends on which no `close_stream` loses its CLOSE to a full outbox
agree in every state at rest, as long as fewer than 2³² − 1 ids were drawn. -/
theorem resting_ends_agree (nearStreams farStreams : Nat) (actions : List PairAct) {p : Pair}
    (ran : run Pair.step (.start nearStreams farStreams) actions = some p)
    (permitted : Meets Pair.step Pair.Permits (.start nearStreams farStreams) actions)
    (few : p.near.session.nextId < 2 ^ 32) (rest : p.AtRest) (id : UInt32) :
    p.near.session.streams id ≠ none ↔ p.far.session.streams id ≠ none := by
  obtain ⟨whole, agree⟩ : p.Whole ∧
      ∀ id, id ≠ 0 → p.near.session.Sole id → (p.view id).Agree := by
    refine run_preserves_where
      (fun p => p.Whole ∧ ∀ id, id ≠ 0 → p.near.session.Sole id → (p.view id).Agree) ?_
      ⟨.start nearStreams farStreams, fun id _ _ => start_agrees nearStreams farStreams id⟩
      permitted ran
    rintro p act q ⟨whole, agree⟩ permits stepped
    have move := Pair.step_move whole.joined stepped
    have after := whole.step stepped
    refine ⟨after, fun id stream sole => ?_⟩
    exact (move.turn whole after stream sole permits).agree
      (agree id stream (move.sole_before sole))
  have ids := whole.ids few
  by_cases zero : id = 0
  · subst zero
    refine iff_of_false (fun has => ?_) (fun has => ?_)
    · obtain ⟨n, found⟩ := Option.ne_none_iff_exists'.mp has
      obtain ⟨known, named⟩ := whole.joined.sound.wired.valid.known found
      have drawn := (ids.drawn n known).1
      rw [named] at drawn
      exact Nat.lt_irrefl 0 drawn
    · obtain ⟨n, found⟩ := Option.ne_none_iff_exists'.mp has
      obtain ⟨known, named⟩ := whole.joined.wired.valid.known found
      exact whole.nonzero.streams n known named
  · refine rest.agree (agree id zero fun n k first second one two => ?_)
    exact ids.apart n k first second (one.trans two.symm)

/-- The tunnel an action is about. -/
private def PairAct.mover : PairAct → Option Nat
  | .near (.tunnel name _) => some name
  | _ => none

private theorem step_untouched (stepped : p.step act = some q) (away : act.mover ≠ some name) :
    q.near.tunnels name = p.near.tunnels name := by
  cases act with
  | near act =>
    cases act with
    | link act =>
      obtain ⟨-, did⟩ := Option.ite_none_right_eq_some.mp stepped
      obtain ⟨near, linked, rfl⟩ := Option.map_eq_some_iff.mp did
      obtain ⟨session, -, rfl⟩ := Option.map_eq_some_iff.mp linked
      rfl
    | tunnel other act =>
      obtain ⟨near, moved, rfl⟩ := Option.map_eq_some_iff.mp stepped
      obtain ⟨⟨session, tunnel⟩, -, rfl⟩ := Option.map_eq_some_iff.mp moved
      exact Proxy.put_other _ (fun same => away (by rw [same]; rfl)) _ _
  | far act =>
    cases act with
    | link act =>
      obtain ⟨-, did⟩ := Option.ite_none_right_eq_some.mp stepped
      obtain ⟨far, -, rfl⟩ := Option.map_eq_some_iff.mp did
      rfl
    | _ =>
      obtain ⟨far, -, rfl⟩ := Option.map_eq_some_iff.mp stepped
      rfl
  | nearHears =>
    obtain ⟨frame, -, did⟩ := Option.bind_eq_some_iff.mp stepped
    obtain ⟨near, heard, rfl⟩ := Option.map_eq_some_iff.mp did
    obtain ⟨session, -, rfl⟩ := Option.map_eq_some_iff.mp heard
    rfl
  | farHears =>
    obtain ⟨frame, -, did⟩ := Option.bind_eq_some_iff.mp stepped
    obtain ⟨far, -, rfl⟩ := Option.map_eq_some_iff.mp did
    rfl

private theorem run_untouched (ran : run Pair.step p actions = some q)
    (away : ∀ act ∈ actions, act.mover ≠ some name) :
    q.near.tunnels name = p.near.tunnels name := by
  induction actions generalizing p with
  | nil =>
    cases ran
    rfl
  | cons act rest ih =>
    obtain ⟨mid, stepped, later⟩ := run_cons.mp ran
    rw [ih later fun act member => away act (by simp [member])]
    exact step_untouched stepped (away act (by simp))

/-- Two tunnels come up; the first client leaves, and its CLOSE is on the link. -/
private def parted : List PairAct :=
  [0, 1].flatMap (fun name =>
    (.near (.tunnel name (.begin (List.replicate 37 0)))) ::
      List.replicate 6 (.near (.tunnel name .proceed))) ++
  [.near (.link (.takeBatch 4)), .near (.link .feed), .near (.link .feed), .near (.link .feed),
    .near (.link .feed), .farHears, .far (.link .advance), .farHears, .far (.link .advance),
    .farHears, .far (.link .advance), .farHears, .far (.link .advance),
    .near (.tunnel 0 .readEnds), .near (.tunnel 0 .leave), .near (.tunnel 0 .proceed),
    .near (.link (.takeBatch 1)), .near (.link .feed)]

private theorem settled_of_parted {rest : List PairAct}
    (ran : run Pair.step (.start 2 2) (parted ++ rest) = some p)
    (still : ∀ act ∈ rest, act.mover = none)
    (first : (p.near.tunnels 0).phase.isSettled = true)
    (second : (p.near.tunnels 1).phase.isSettled = true) (name : Nat) :
    (p.near.tunnels name).phase.isSettled = true := by
  have movers : ∀ act ∈ parted, act.mover.all (· < 2) = true := by decide +kernel
  match name with
  | 0 => exact first
  | 1 => exact second
  | name + 2 =>
    rw [run_untouched ran]
    · rfl
    · intro act member same
      obtain early | late := List.mem_append.mp member
      · have few := movers act early
        rw [same] at few
        simp at few
      · rw [still act late] at same
        cases same

/-- The first stream has been closed on both ends, the second lives on both. -/
theorem resting_ends_agree_parted :
    ∃ p, run Pair.step (.start 2 2) (parted ++ [.farHears]) = some p ∧ p.AtRest ∧
      (p.near.session.streams 1 ≠ none ↔ p.far.session.streams 1 ≠ none) ∧
      (p.near.session.streams 2 ≠ none ↔ p.far.session.streams 2 ≠ none) ∧
      p.near.session.streams 1 = none ∧ p.near.session.streams 2 ≠ none := by
  have checked : ((run Pair.step (.start 2 2) (parted ++ [.farHears])).any fun p =>
      p.toFar = [] ∧ p.toNear = [] ∧ p.near.session.reader = .idle ∧
      p.far.session.reader = .idle ∧ (p.near.tunnels 0).phase.isSettled = true ∧
      (p.near.tunnels 1).phase.isSettled = true ∧ p.near.session.nextId < 2 ^ 32 ∧
      p.near.session.streams 1 = none ∧ p.near.session.streams 2 ≠ none) = true := by
    decide +kernel
  have permitted : Meets Pair.step Pair.Permits (.start 2 2) (parted ++ [.farHears]) := by
    decide +kernel
  obtain ⟨p, ran, holds⟩ := run_reaches checked
  obtain ⟨toFar, toNear, nearIdle, farIdle, first, second, few, gone, has⟩ := holds
  have rest : p.AtRest := by
    refine ⟨toFar, toNear, nearIdle, farIdle, settled_of_parted ran ?_ first second⟩
    simp [PairAct.mover]
  exact ⟨p, ran, rest, resting_ends_agree 2 2 _ ran permitted few rest 1,
    resting_ends_agree 2 2 _ ran permitted few rest 2, gone, has⟩

/-- An attempt to queue a frame fails only on a full outbox. -/
def Pair.Full (p : Pair) : PairAct → Prop
  | .far (.flushCredit _ _ sent) | .far (.shutdown _ sent) | .far (.drop _ sent) =>
    sent = true ∨ outboxFrames ≤ p.far.session.out.len
  | _ => True

instance (p : Pair) : (act : PairAct) → Decidable (p.Full act)
  | .far (.flushCredit _ _ _) | .far (.shutdown _ _) | .far (.drop _ _) =>
    inferInstanceAs (Decidable (_ ∨ _))
  | .far (.link _) | .far (.send _ _) | .far (.proceed _) | .far (.recv _) | .near _ | .nearHears
  | .farHears => isTrue trivial

private def oneByteFrame : Frame := ⟨1, .data, [7]⟩

/-- The accepting end writes one byte on the stream the client has left. -/
private def trickle : List PairAct := [.far (.send 0 [7]), .far (.proceed 0), .far (.proceed 0)]

/-- The second stream lives on both ends; the outbox of the accepting end holds
`count` frames, none taken, and all that is left to read there is a CLOSE. -/
private structure Trickled (p : Pair) (count : Nat) : Prop where
  created : p.far.session.created = 2
  finished : (p.far.sending 0).isOver = true
  gate : (p.far.session.arena 0).credit.closed = false
  enough : outboxFrames ≤ (p.far.session.arena 0).credit.permits + count
  ids : (p.far.session.arena 0).id = 1 ∧ (p.far.session.arena 1).id = 2
  opened : p.far.session.out.isOpen = true
  untaken : p.far.session.out.taken = 0 ∧ p.far.session.fed = 0
  frames : p.far.session.out.accepted = List.replicate count oneByteFrame
  farIdle : p.far.session.reader = .idle
  left : p.toFar = [.control 1 .close] ∧ p.far.session.log.length < p.near.session.fed
  unread : p.near.session.log = []
  nearIdle : p.near.session.reader = .idle
  streams : p.near.session.streams 1 = none ∧ p.near.session.streams 2 ≠ none
  few : p.near.session.nextId < 2 ^ 32
  settled : ∀ name, (p.near.tunnels name).phase.isSettled = true

private theorem trickle_meets : Meets Pair.step Pair.Full p trickle :=
  ⟨trivial, fun _ _ => ⟨trivial, fun _ _ => ⟨trivial, fun _ _ => trivial⟩⟩⟩

/-- The send begins, spends one permit, and gets its place. -/
private def begun (p : Pair) : Pair :=
  ⟨p.near, p.far.session, Function.update p.far.sending 0 (.acquire [7])⟩

private def spent (s : Session) : Session :=
  s.modify 0 fun st => { st with credit :=
    { (s.arena 0).credit with permits := (s.arena 0).credit.permits - 1 } }

private def paid (p : Pair) : Pair :=
  ⟨p.near, spent p.far.session, Function.update (begun p).far.sending 0 (.queue [7] [])⟩

private def queued (p : Pair) : Pair :=
  ⟨p.near, { spent p.far.session with out := p.far.session.out.push oneByteFrame },
    Function.update (paid p).far.sending 0 .sent⟩

private theorem trickle_fills (trickled : Trickled p count) (room : count < outboxFrames) :
    ∃ q, run Pair.step p trickle = some q ∧ Trickled q (count + 1) := by
  have known : 0 < p.far.session.created := by
    rw [trickled.created]
    decide
  have enough : 1 ≤ (p.far.session.arena 0).credit.permits := by
    have held := trickled.enough
    omega
  have free : p.far.session.out.len < outboxFrames := by
    simp only [Channel.len, trickled.frames, List.length_replicate, trickled.untaken.1]
    omega
  have first : p.step (.far (.send 0 [7])) = some (begun p) := by
    simp [Pair.step, Acceptor.step, known, trickled.finished, Sending.next, begun]
  have second : (begun p).step (.far (.proceed 0)) = some (paid p) := by
    simp [Pair.step, Acceptor.step, known, begun, Session.sendStep, trickled.gate,
      Semaphore.acquireMany, maxPayload, enough, paid, spent]
  have third : (paid p).step (.far (.proceed 0)) = some (queued p) := by
    have id := trickled.ids.1
    simp [Pair.step, Acceptor.step, known, paid, spent, Session.modify, Session.sendStep,
      Session.sends, trickled.opened, Session.enqueue, free, Sending.next, queued, id, oneByteFrame]
  refine ⟨queued p,
    run_cons.mpr ⟨_, first, run_cons.mpr ⟨_, second, run_cons.mpr ⟨_, third, rfl⟩⟩⟩, ?_⟩
  refine ⟨trickled.created, ?_, ?_, ?_, ?_, trickled.opened, trickled.untaken, ?_, trickled.farIdle,
    trickled.left, trickled.unread, trickled.nearIdle, trickled.streams, trickled.few,
    trickled.settled⟩
  · simp [queued, Sending.isOver]
  · simpa [queued, spent, Session.modify] using trickled.gate
  · have held := trickled.enough
    simp only [queued, spent, Session.modify, Function.update_self]
    omega
  · simpa [queued, spent, Session.modify] using trickled.ids
  · show p.far.session.out.accepted ++ [oneByteFrame] = _
    rw [trickled.frames, List.replicate_succ']

private theorem trickles_fill (trickled : Trickled p count) (more : Nat)
    (room : count + more ≤ outboxFrames) :
    ∃ q, run Pair.step p (List.replicate more trickle).flatten = some q ∧
      Trickled q (count + more) ∧
        Meets Pair.step Pair.Full p (List.replicate more trickle).flatten := by
  apply run_repeated (fun count p => Trickled p count) _ trickled more room
  intro count p room trickled
  obtain ⟨q, ran, fuller⟩ := trickle_fills trickled room
  exact ⟨q, ran, fuller, trickle_meets⟩

/-- The outbox of the accepting end is on its way to a client side that knows
nothing of the first stream; `left` frames of the batch are not on the link. -/
private structure Draining (p : Pair) (left : Nat) : Prop where
  read : p.near.session.log.length = p.far.session.fed
  taken : p.far.session.out.taken = p.far.session.fed + left
  opened : p.far.session.out.isOpen = true
  frames : p.far.session.out.accepted = List.replicate outboxFrames oneByteFrame
  toFar : p.toFar = []
  nearIdle : p.near.session.reader = .idle
  farIdle : p.far.session.reader = .idle
  streams : p.near.session.streams 1 = none ∧ p.near.session.streams 2 ≠ none
  gone : p.far.session.streams 2 = none
  few : p.near.session.nextId < 2 ^ 32
  settled : ∀ name, (p.near.tunnels name).phase.isSettled = true

/-- The second stream is dropped while the outbox is full. -/
private def dropped : List PairAct := [.farHears, .far (.drop 1 false)]

/-- After the CLOSE of the first stream is read. -/
private def told (s : Session) : Session :=
  ({ s with log := s.log ++ [.control 1 .close] } : Session).removeAndClose 1

/-- After the second stream is dropped without a word. -/
private def forgotten (p : Pair) : Pair :=
  ⟨p.near, ((told p.far.session).removeAndClose 2).hangUp 1, Function.update p.far.sending 1 .sent⟩

private theorem hears_close (idle : s.reader = .idle) :
    s.step (.recv (Frame.control 1 .close).encode) = some (told s) := by
  have short : (Frame.control 1 .close).encode.length ≤ maxNoiseMsg - tagLen := by decide
  have parsed : Frame.parse (Frame.control 1 .close).encode = some (.control 1 .close) :=
    Frame.parse_encode (by simp [Frame.Named, Frame.control])
  rw [Session.step, if_pos ⟨idle, short⟩, parsed]
  simp [Session.dispatch, Frame.control, told]

private theorem trickled_drops (trickled : Trickled p outboxFrames) :
    ∃ q, run Pair.step p dropped = some q ∧ Draining q 0 ∧ q.far.session.fed = 0 ∧
      Meets Pair.step Pair.Full p dropped := by
  have next : p.far.session.nextFrom p.near.session = some (.control 1 .close) := by
    have first := congrArg (·[0]?) trickled.left.1
    simp only [Pair.toFar, List.getElem?_drop, Nat.add_zero] at first
    rw [Session.nextFrom, if_pos trickled.left.2, first]
    rfl
  have quiet := quiet_removeAndClose { p.far.session with
    log := p.far.session.log ++ [.control 1 .close] } 1
  have later := quiet_removeAndClose (told p.far.session) 2
  have known : 1 < (told p.far.session).created := by
    rw [told, removeAndClose_created]
    exact trickled.created ▸ Nat.one_lt_two
  have id : ((told p.far.session).arena 1).id = 2 := by
    rw [told, quiet.id 1 (by rw [trickled.created]; decide)]
    exact trickled.ids.2
  have out : (told p.far.session).out = p.far.session.out := removeAndClose_out _ _
  have first : p.step .farHears = some { p with far := { p.far with session := told p.far.session } } := by
    simp [Pair.step, next, Acceptor.step, hears_close trickled.farIdle]
  have second : Pair.step { p with far := { p.far with session := told p.far.session } }
      (.far (.drop 1 false)) = some (forgotten p) := by
    simp [Pair.step, Acceptor.step, known, Session.closeStream, Session.trySends, id, forgotten]
  have full : outboxFrames ≤ (told p.far.session).out.len := by
    rw [out, Channel.len, trickled.frames, trickled.untaken.1, List.length_replicate]
    exact Nat.le_refl _
  have outbox : (forgotten p).far.session.out = p.far.session.out := (removeAndClose_out _ 2).trans out
  have fed : (forgotten p).far.session.fed = p.far.session.fed :=
    (removeAndClose_fed _ 2).trans (removeAndClose_fed _ 1)
  refine ⟨forgotten p, run_cons.mpr ⟨_, first, run_cons.mpr ⟨_, second, rfl⟩⟩, ?_,
    fed.trans trickled.untaken.2, ?_⟩
  · refine ⟨?_, ?_, ?_, ?_, ?_, trickled.nearIdle, ?_, trickled.streams, ?_, trickled.few,
      trickled.settled⟩
    · rw [fed, trickled.untaken.2]
      exact congrArg List.length trickled.unread
    · rw [outbox, fed, trickled.untaken.1, trickled.untaken.2]
    · rw [outbox]
      exact trickled.opened
    · rw [outbox]
      exact trickled.frames
    · have log : (forgotten p).far.session.log = p.far.session.log ++ [.control 1 .close] :=
        later.log.trans quiet.log
      have split : (forgotten p).toFar = p.toFar.drop 1 := by
        rw [Pair.toFar, log, List.length_append, Pair.toFar, List.drop_drop]
        rfl
      rw [split, trickled.left.1]
      rfl
    · exact later.reader.trans (quiet.reader.trans trickled.farIdle)
    · exact removeAndClose_absent _ 2
  · refine ⟨trivial, fun mid stepped => ⟨.inr ?_, fun _ _ => trivial⟩⟩
    cases first.symm.trans stepped
    exact full

/-- One frame goes over the link and is not for any stream. -/
private def gulp : List PairAct := [.far (.link .feed), .nearHears]

/-- One full batch. -/
private def batch : List PairAct :=
  .far (.link (.takeBatch writeBatch)) :: (List.replicate writeBatch gulp).flatten

private def swallowed (p : Pair) : Pair :=
  ⟨{ p.near with session := { p.near.session with log := p.near.session.log ++ [oneByteFrame] } },
    { p.far with session := { p.far.session with fed := p.far.session.fed + 1 } }⟩

private theorem ignores_byte (idle : s.reader = .idle) (absent : s.streams 1 = none) :
    s.step (.recv oneByteFrame.encode) = some { s with log := s.log ++ [oneByteFrame] } := by
  have short : oneByteFrame.encode.length ≤ maxNoiseMsg - tagLen := by decide
  have parsed : Frame.parse oneByteFrame.encode = some oneByteFrame :=
    Frame.parse_encode (by simp [Frame.Named, oneByteFrame])
  rw [Session.step, if_pos ⟨idle, short⟩, parsed]
  simp [Session.dispatch, oneByteFrame, absent]

private theorem gulp_drains (draining : Draining p (left + 1)) :
    ∃ q, run Pair.step p gulp = some q ∧ Draining q left ∧
      q.far.session.fed = p.far.session.fed + 1 := by
  have taken := draining.taken
  have within := p.far.session.out.within
  rw [draining.frames, List.length_replicate, taken] at within
  have fed : p.step (.far (.link .feed)) = some { p with far := { p.far with
      session := { p.far.session with fed := p.far.session.fed + 1 } } } := by
    simp [Pair.step, Session.Act.isLive, Acceptor.step, Session.step, draining.opened, taken]
  have next : p.near.session.nextFrom { p.far.session with fed := p.far.session.fed + 1 } =
      some oneByteFrame := by
    rw [Session.nextFrom, if_pos (by rw [draining.read]; exact Nat.lt_succ_self _), draining.frames,
      List.getElem?_replicate, if_pos (by rw [draining.read]; omega)]
  have heard : Pair.step { p with far := { p.far with
      session := { p.far.session with fed := p.far.session.fed + 1 } } } .nearHears =
        some (swallowed p) := by
    simp [Pair.step, next, Proxy.step, ignores_byte draining.nearIdle draining.streams.1, swallowed]
  refine ⟨swallowed p, run_cons.mpr ⟨_, fed, run_cons.mpr ⟨_, heard, rfl⟩⟩, ?_, rfl⟩
  refine ⟨?_, ?_, draining.opened, draining.frames, draining.toFar, draining.nearIdle,
    draining.farIdle, draining.streams, draining.gone, draining.few, draining.settled⟩
  · simp [swallowed, draining.read]
  · show p.far.session.out.taken = p.far.session.fed + 1 + left
    omega

private theorem gulps_drain (draining : Draining p left) :
    ∃ q, run Pair.step p (List.replicate left gulp).flatten = some q ∧ Draining q 0 ∧
      q.far.session.fed = p.far.session.fed + left := by
  induction left generalizing p with
  | zero => exact ⟨p, rfl, draining, rfl⟩
  | succ left ih =>
    obtain ⟨mid, ran, less, one⟩ := gulp_drains draining
    obtain ⟨q, later, done, fed⟩ := ih less
    rw [List.replicate_succ, List.flatten_cons]
    refine ⟨q, run_append.mpr ⟨mid, ran, later⟩, done, ?_⟩
    omega

private theorem batches_drain (draining : Draining p 0) (count : Nat)
    (rest : p.far.session.fed + writeBatch * count = outboxFrames) :
    ∃ q, run Pair.step p (List.replicate count batch).flatten = some q ∧ Draining q 0 ∧
      q.far.session.fed = outboxFrames := by
  induction count generalizing p with
  | zero => exact ⟨p, rfl, draining, by simpa using rest⟩
  | succ count ih =>
    have more : writeBatch ≤ p.far.session.out.len := by
      rw [Channel.len, draining.frames, draining.taken, List.length_replicate]
      rw [Nat.mul_succ] at rest
      omega
    have took : p.step (.far (.link (.takeBatch writeBatch))) = some { p with far := { p.far with
        session := { p.far.session with out := p.far.session.out.advance writeBatch } } } := by
      have empty : p.far.session.fed = p.far.session.out.taken := draining.taken.symm
      have some : 0 < writeBatch := by decide
      simp [Pair.step, Session.Act.isLive, Acceptor.step, Session.step, draining.opened, empty, some,
        more]
    have batched : Draining { p with far := { p.far with
        session := { p.far.session with out := p.far.session.out.advance writeBatch } } }
        writeBatch := by
      refine ⟨draining.read, ?_, draining.opened, draining.frames, draining.toFar, draining.nearIdle,
        draining.farIdle, draining.streams, draining.gone, draining.few, draining.settled⟩
      have taken := draining.taken
      simp only [Channel.advance]
      omega
    obtain ⟨mid, ran, less, fed⟩ := gulps_drain batched
    obtain ⟨q, later, done, all⟩ := ih less (by
      rw [fed, Nat.mul_succ] at *
      dsimp only
      omega)
    rw [List.replicate_succ, List.flatten_cons]
    exact ⟨q, run_append.mpr ⟨mid, run_cons.mpr ⟨_, took, ran⟩, later⟩, done, all⟩

private theorem batch_full (act : PairAct)
    (member : ∃ actions, actions ∈ List.replicate count batch ∧ act ∈ actions) (p : Pair) :
    p.Full act := by
  obtain ⟨actions, among, member⟩ := member
  rw [List.eq_of_mem_replicate among, batch, List.mem_cons, List.mem_flatten] at member
  obtain rfl | ⟨gulps, among, member⟩ := member
  · trivial
  · rw [List.eq_of_mem_replicate among, gulp] at member
    obtain rfl | rfl : act = .far (.link .feed) ∨ act = .nearHears := by simpa using member
    · trivial
    · trivial

private theorem parted_trickles :
    ∃ p, run Pair.step (.start 2 2) parted = some p ∧ Trickled p 0 ∧
      Meets Pair.step Pair.Full (.start 2 2) parted := by
  have checked : ((run Pair.step (.start 2 2) parted).any fun p =>
      p.far.session.created = 2 ∧ (p.far.sending 0).isOver = true ∧
      (p.far.session.arena 0).credit.closed = false ∧
      outboxFrames ≤ (p.far.session.arena 0).credit.permits + 0 ∧
      ((p.far.session.arena 0).id = 1 ∧ (p.far.session.arena 1).id = 2) ∧
      p.far.session.out.isOpen = true) = true := by decide +kernel
  have also : ((run Pair.step (.start 2 2) parted).any fun p =>
      (p.far.session.out.taken = 0 ∧ p.far.session.fed = 0) ∧
      p.far.session.out.accepted = [] ∧ p.far.session.reader = .idle ∧
      (p.toFar = [.control 1 .close] ∧ p.far.session.log.length < p.near.session.fed) ∧
      p.near.session.log = [] ∧ p.near.session.reader = .idle) = true := by decide +kernel
  have more : ((run Pair.step (.start 2 2) parted).any fun p =>
      (p.near.session.streams 1 = none ∧ p.near.session.streams 2 ≠ none) ∧
      p.near.session.nextId < 2 ^ 32 ∧ (p.near.tunnels 0).phase.isSettled = true ∧
      (p.near.tunnels 1).phase.isSettled = true) = true := by decide +kernel
  have full : Meets Pair.step Pair.Full (.start 2 2) parted := by decide +kernel
  obtain ⟨p, ran, holds⟩ := (Option.any_eq_true _ _).mp checked
  rw [ran] at also more
  simp only [Option.any_some, decide_eq_true_eq] at holds also more
  obtain ⟨created, finished, gate, enough, ids, opened⟩ := holds
  obtain ⟨untaken, frames, farIdle, left, unread, nearIdle⟩ := also
  obtain ⟨streams, few, first, second⟩ := more
  have settled := settled_of_parted (by rwa [List.append_nil]) (List.forall_mem_nil _) first second
  exact ⟨p, ran, ⟨created, finished, gate, enough, ids, opened, untaken, frames, farIdle, left, unread,
    nearIdle, streams, few, settled⟩, full⟩

/-- A connection dropped while the accepting end's outbox is full is never told
to the opener: both ends come to rest, and one of them still has the stream. -/
theorem resting_ends_disagree :
    ∃ actions p, run Pair.step (.start 2 2) actions = some p ∧
      Meets Pair.step Pair.Full (.start 2 2) actions ∧ p.near.session.nextId < 2 ^ 32 ∧ p.AtRest ∧
      p.near.session.streams 2 ≠ none ∧ p.far.session.streams 2 = none := by
  obtain ⟨p, up, trickled, met⟩ := parted_trickles
  obtain ⟨q, filled, full, also⟩ := trickles_fill trickled outboxFrames (by omega)
  rw [Nat.zero_add] at full
  obtain ⟨r, lost, draining, unfed, still⟩ := trickled_drops full
  obtain ⟨last, drained, done, fed⟩ := batches_drain draining 8 (by rw [unfed]; rfl)
  refine ⟨parted ++ ((List.replicate outboxFrames trickle).flatten ++
      (dropped ++ (List.replicate 8 batch).flatten)), last, ?_, ?_, done.few, ?_, done.streams.2, done.gone⟩
  · exact run_append.mpr ⟨p, up, run_append.mpr ⟨q, filled, run_append.mpr ⟨r, lost, drained⟩⟩⟩
  · refine met.append up (also.append filled (still.append lost (meets_of_mem fun act member p => ?_)))
    exact batch_full act (List.mem_flatten.mp member) p
  · refine ⟨done.toFar, ?_, done.nearIdle, done.farIdle, done.settled⟩
    rw [Pair.toNear, done.read, fed, done.frames]
    simp

end DshProxy.Mux

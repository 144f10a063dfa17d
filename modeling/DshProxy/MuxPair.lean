import DshProxy.ServeDownlink
import DshProxy.Noise

/-! Two sessions joined by one link: a proxy that opens streams and serves them,
and an end that accepts them. The link delivers what the writers put on it, in
order; a frame goes over it as the plaintext of one record. -/
namespace DshProxy.Mux
open Sync Wire Transitions

/-- No send is in flight. -/
def Sending.isOver : Sending → Bool
  | .sent | .broken => true
  | _ => false

/-- The accepting end: a session whose `on_open` handler wraps every stream in a
`MuxStreamIo`. Of the wrapper it has what touches the session: at most one
`StreamTx::send` in flight for each stream, chunks taken, credit returned and
`close_stream` on shutdown and on drop. -/
structure Acceptor where
  session : Session
  sending : Nat → Sending := fun _ => .sent

inductive AcceptorAct
  | link (act : Session.Act)
  | send (stream : Nat) (data : Bytes)
  /-- The next piece of the send in flight. -/
  | proceed (stream : Nat)
  | recv (stream : Nat)
  | flushCredit (stream : Nat) (bytes : Nat) (sent : Bool)
  /-- `poll_shutdown`, nothing left to flush. -/
  | shutdown (stream : Nat) (sent : Bool)
  /-- `drop`, which also drops a send in flight. -/
  | drop (stream : Nat) (sent : Bool)
  deriving DecidableEq, Repr

def Acceptor.step (a : Acceptor) : AcceptorAct → Option Acceptor
  | .link act => (a.session.step act).map fun session => { a with session }
  | .send stream data =>
    if stream < a.session.created ∧ (a.sending stream).isOver then
      some { a with sending := Function.update a.sending stream (.next data) }
    else none
  | .proceed stream =>
    if stream < a.session.created then
      (a.session.sendStep stream (a.sending stream)).map fun (session, stage) =>
        { session, sending := Function.update a.sending stream stage }
    else none
  | .recv stream =>
    if stream < a.session.created then
      (a.session.take stream).map fun (_, session) => { a with session }
    else none
  | .flushCredit stream bytes sent =>
    if stream < a.session.created then
      (a.session.trySends (.grant (a.session.arena stream).id bytes) sent).map fun session =>
        { a with session }
    else none
  | .shutdown stream sent =>
    if stream < a.session.created ∧ (a.sending stream).isOver then
      (a.session.closeStream stream sent).map fun session => { a with session }
    else none
  | .drop stream sent =>
    if stream < a.session.created then
      (a.session.closeStream stream sent).map fun session =>
        { session := session.hangUp stream, sending := Function.update a.sending stream .sent }
    else none

/-- Everything a step of the accepting end's users can be. -/
inductive AcceptorMove (a : Acceptor) : AcceptorAct → Acceptor → Prop
  | send (stream data) (known : stream < a.session.created)
    (finished : (a.sending stream).isOver = true) : AcceptorMove a (.send stream data)
      { a with sending := Function.update a.sending stream (.next data) }
  | proceed (stream next) (known : stream < a.session.created)
    (did : SendMove a.session stream (a.sending stream) s' next) :
    AcceptorMove a (.proceed stream)
      { session := s', sending := Function.update a.sending stream next }
  | recv (stream chunk) (known : stream < a.session.created)
    (did : a.session.take stream = some (chunk, s')) :
    AcceptorMove a (.recv stream) { a with session := s' }
  | grants (stream bytes) (known : stream < a.session.created)
    (did : a.session.enqueue (.grant (a.session.arena stream).id bytes) = some s') :
    AcceptorMove a (.flushCredit stream bytes true) { a with session := s' }
  | owes (stream bytes) : AcceptorMove a (.flushCredit stream bytes false) a
  | shutdown (stream sent) (known : stream < a.session.created)
    (did : a.session.closeStream stream sent = some s') :
    AcceptorMove a (.shutdown stream sent) { a with session := s' }
  | drop (stream sent) (known : stream < a.session.created)
    (did : a.session.closeStream stream sent = some s') :
    AcceptorMove a (.drop stream sent)
      { session := s'.hangUp stream, sending := Function.update a.sending stream .sent }

/-- `close_stream` gets its CLOSE into the outbox, or drops it. -/
theorem closeStream_cases {s s' : Session} (closed : s.closeStream stream sent = some s') :
    (sent = true ∧ (s.removeAndClose (s.arena stream).id).enqueue
      (.control (s.arena stream).id .close) = some s') ∨
    (sent = false ∧ s' = s.removeAndClose (s.arena stream).id) := by
  cases sent with
  | true => exact .inl ⟨rfl, closed⟩
  | false =>
    cases closed
    exact .inr ⟨rfl, rfl⟩

theorem acceptorStep_move {a b : Acceptor} (user : ∀ link, act ≠ .link link)
    (stepped : a.step act = some b) : AcceptorMove a act b := by
  cases act with
  | link act => exact absurd rfl (user act)
  | send stream data =>
    obtain ⟨⟨known, finished⟩, same⟩ := Option.ite_none_right_eq_some.mp stepped
    cases same
    exact .send stream data known finished
  | proceed stream =>
    obtain ⟨known, did⟩ := Option.ite_none_right_eq_some.mp stepped
    obtain ⟨⟨session, next⟩, sent, rfl⟩ := Option.map_eq_some_iff.mp did
    exact .proceed stream next known (sendStep_move sent)
  | recv stream =>
    obtain ⟨known, did⟩ := Option.ite_none_right_eq_some.mp stepped
    obtain ⟨⟨chunk, session⟩, took, rfl⟩ := Option.map_eq_some_iff.mp did
    exact .recv stream chunk known took
  | flushCredit stream bytes sent =>
    obtain ⟨known, did⟩ := Option.ite_none_right_eq_some.mp stepped
    obtain ⟨session, tried, rfl⟩ := Option.map_eq_some_iff.mp did
    cases sent with
    | true => exact .grants stream bytes known tried
    | false =>
      cases tried
      exact .owes stream bytes
  | shutdown stream sent =>
    obtain ⟨⟨known, -⟩, did⟩ := Option.ite_none_right_eq_some.mp stepped
    obtain ⟨session, closed, rfl⟩ := Option.map_eq_some_iff.mp did
    exact .shutdown stream sent known closed
  | drop stream sent =>
    obtain ⟨known, did⟩ := Option.ite_none_right_eq_some.mp stepped
    obtain ⟨session, closed, rfl⟩ := Option.map_eq_some_iff.mp did
    exact .drop stream sent known closed

structure Pair where
  near : Proxy
  far : Acceptor

inductive PairAct
  | near (act : ProxyAct)
  | far (act : AcceptorAct)
  /-- A `read_loop` gets the next frame off the link. -/
  | nearHears
  | farHears
  deriving DecidableEq, Repr

/-- What the two tasks of a session do on a link that lives. -/
def Session.Act.isLive : Session.Act → Bool
  | .advance | .reply | .takeBatch _ | .feed | .release => true
  | _ => false

/-- The next frame on the link from one session to another. -/
def Session.nextFrom (s sender : Session) : Option Frame :=
  if s.log.length < sender.fed then sender.out.accepted[s.log.length]? else none

def Pair.step (p : Pair) : PairAct → Option Pair
  | .near (.link act) =>
    if act.isLive then (p.near.step (.link act)).map fun near => { p with near } else none
  | .near (.tunnel name act) => (p.near.step (.tunnel name act)).map fun near => { p with near }
  | .far (.link act) =>
    if act.isLive then (p.far.step (.link act)).map fun far => { p with far } else none
  | .far act => (p.far.step act).map fun far => { p with far }
  | .nearHears =>
    (p.near.session.nextFrom p.far.session).bind fun frame =>
      (p.near.step (.link (.recv frame.encode))).map fun near => { p with near }
  | .farHears =>
    (p.far.session.nextFrom p.near.session).bind fun frame =>
      (p.far.step (.link (.recv frame.encode))).map fun far => { p with far }

/-- Two fresh sessions; the far end has its handler. -/
def Pair.start (nearStreams farStreams : Nat) : Pair :=
  { near := .start nearStreams, far := { session := .start farStreams true } }

/-- `read_loop` has not returned. -/
def Reader.isAlive : Reader → Bool
  | .dying | .aborting | .ended => false
  | _ => true

/-- A frame the far end can read back. -/
structure Frame.Proper (frame : Frame) : Prop where
  named : frame.Named
  small : frame.payload.length ≤ maxPayload

/-- What holds of a session as long as its link lives. -/
structure Live (s : Session) : Prop where
  opened : s.out.isOpen = true
  fed : s.fed ≤ s.out.taken
  frames : ∀ frame ∈ s.out.accepted, frame.Proper
  reader : s.reader.isAlive = true

variable {s s' u u' : Session} {t t' : Tunnel}

theorem Frame.control_proper (id : UInt32) {kind : Kind} (named : ∀ code, kind ≠ .other code) :
    (Frame.control id kind).Proper := ⟨named, by simp [Frame.control]⟩

theorem Frame.grant_proper (id : UInt32) (bytes : Nat) : (Frame.grant id bytes).Proper :=
  ⟨by simp [Frame.Named, Frame.grant], by simp [Frame.grant, maxPayload]⟩

theorem Reader.replies_proper {r : Reader} (replies : r.replies = some frame) : frame.Proper := by
  cases r <;> simp only [Reader.replies, reduceCtorEq, Option.some.injEq] at replies
  · subst replies
    exact Frame.control_proper 0 (by simp)
  · subst replies
    exact Frame.control_proper _ (by simp)

theorem Live.enqueue (live : Live s) (proper : frame.Proper) (queued : s.enqueue frame = some s') :
    Live s' := by
  obtain ⟨rfl, -, -⟩ := enqueue_eq queued
  refine ⟨live.opened, live.fed, fun other member => ?_, live.reader⟩
  obtain old | new := List.mem_append.mp member
  · exact live.frames other old
  · obtain rfl := List.mem_singleton.mp new
    exact proper

/-- Changing nothing but the map and the arena. -/
theorem Live.of_eq (live : Live s) (out : s'.out = s.out) (fed : s'.fed = s.fed)
    (reader : s'.reader = s.reader) : Live s' := by
  refine ⟨?_, ?_, ?_, ?_⟩
  · rw [out]
    exact live.opened
  · rw [out, fed]
    exact live.fed
  · rw [out]
    exact live.frames
  · rw [reader]
    exact live.reader

@[simp] theorem remove_fed (s : Session) (id : UInt32) : (s.remove id).fed = s.fed := by
  unfold Session.remove
  split <;> rfl

@[simp] theorem removeAndClose_fed (s : Session) (id : UInt32) :
    (s.removeAndClose id).fed = s.fed := by
  unfold Session.removeAndClose
  split
  · rfl
  · exact remove_fed s id

theorem Live.heard (live : Live s) (did : Heard s frame s') : Live s' := by
  cases did with
  | closes =>
    refine live.of_eq (removeAndClose_out _ _) (removeAndClose_fed _ _) ?_
    exact (quiet_removeAndClose _ _).reader
  | grants aim => exact live.of_eq rfl rfl rfl
  | ignores => exact live.of_eq rfl rfl rfl
  | _ => exact ⟨live.opened, live.fed, live.frames, rfl⟩

/-- The link tasks keep the link alive. -/
theorem Live.step (live : Live s) (tasks : act.isLive = true) (stepped : s.step act = some s') :
    Live s' := by
  cases step_move stepped with
  | admits => exact ⟨live.opened, live.fed, live.frames, rfl⟩
  | admitsNobody => exact ⟨live.opened, live.fed, live.frames, rfl⟩
  | delivers => exact ⟨live.opened, live.fed, live.frames, rfl⟩
  | drops => exact ⟨live.opened, live.fed, live.frames, rfl⟩
  | overflows => exact ⟨live.opened, live.fed, live.frames, rfl⟩
  | evicts id =>
    refine ⟨?_, ?_, ?_, rfl⟩
    · simpa using live.opened
    · simpa using live.fed
    · simpa using live.frames
  | dies reading =>
    have alive := live.reader
    rw [reading] at alive
    cases alive
  | ends reading =>
    have alive := live.reader
    rw [reading] at alive
    cases alive
  | replies frame reading did =>
    have kept := live.enqueue (Reader.replies_proper reading) did
    exact ⟨kept.opened, kept.fed, kept.frames, rfl⟩
  | replyFails frame reading dead =>
    have opened := live.opened
    rw [dead] at opened
    cases opened
  | takeBatch count empty =>
    refine ⟨live.opened, ?_, live.frames, live.reader⟩
    simp only [Channel.advance]
    omega
  | feed some =>
    exact ⟨live.opened, some, live.frames, live.reader⟩
  | release => exact live.of_eq rfl rfl rfl
  | _ => cases tasks

/-- The chunk in hand fits one frame. -/
def Sending.Small : Sending → Prop
  | .queue chunk _ => chunk.length ≤ maxPayload
  | _ => True

theorem Live.sendMove (live : Live s) (small : stage.Small) (move : SendMove s stream stage s' next) :
    Live s' ∧ next.Small := by
  cases move with
  | spends rest => exact ⟨live.of_eq rfl rfl rfl, by simp [Sending.Small]⟩
  | shut => exact ⟨live, trivial⟩
  | queues chunk rest did =>
    have proper : (⟨(s.arena stream).id, .data, chunk⟩ : Frame).Proper :=
      ⟨by simp [Frame.Named], small⟩
    refine ⟨live.enqueue proper did, ?_⟩
    unfold Sending.next
    split <;> trivial
  | dead => exact ⟨live, trivial⟩

/-- What is true of a tunnel on a live link. -/
structure Tunnel.Lively (t : Tunnel) : Prop where
  greeting : ∀ stage, t.phase = .greeting stage → stage.Small
  uplink : ∀ stage, t.uplink = .sending stage → stage.Small
  announced : ∀ n, t.phase ≠ .opening (.giveUp n)

theorem Tunnel.Lively.of_eq (lively : t.Lively) (phase : t'.phase = t.phase)
    (uplink : t'.uplink = t.uplink) : t'.Lively := by
  refine ⟨?_, ?_, ?_⟩
  · rw [phase]
    exact lively.greeting
  · rw [uplink]
    exact lively.uplink
  · rw [phase]
    exact lively.announced

/-- A change of the phase to one that is not in the middle of a send. -/
private theorem lively_phase (lively : t.Lively) {phase : Phase} (greeting : phase.sends = none)
    (announced : ∀ n, phase ≠ .opening (.giveUp n)) {stream : Option Nat} {head : Bytes} :
    ({ t with phase, stream, head } : Tunnel).Lively := by
  refine ⟨fun stage same => ?_, lively.uplink, announced⟩
  rw [show phase = _ from same] at greeting
  cases greeting

theorem Sending.next_small (data : Bytes) : (Sending.next data).Small := by
  unfold Sending.next
  split <;> trivial

theorem Move.live (move : Move s t act s' t') (live : Live s) (lively : t.Lively) :
    Live s' ∧ t'.Lively := by
  have dead_not (dead : s.out.isOpen = false) : False := by
    have opened := live.opened
    rw [dead] at opened
    cases opened
  cases move with
  | begin head => exact ⟨live, lively_phase lively rfl (by simp)⟩
  | reserve _ did =>
    obtain ⟨-, same⟩ := Option.ite_none_left_eq_some.mp did
    cases same
    exact ⟨live.of_eq rfl rfl rfl, lively_phase lively rfl (by simp)⟩
  | refused => exact ⟨live, lively_phase lively rfl (by simp)⟩
  | allocate => exact ⟨live.of_eq rfl rfl rfl, lively_phase lively rfl (by simp)⟩
  | insert id => exact ⟨live.of_eq rfl rfl rfl, lively_phase lively rfl (by simp)⟩
  | announce stream _ did =>
    refine ⟨live.enqueue (Frame.control_proper _ (by simp)) did, fun stage same => ?_, lively.uplink,
      by simp⟩
    cases same
    exact Sending.next_small _
  | announceFails stream _ dead => exact (dead_not dead).elim
  | giveUp stream phase => exact absurd phase (lively.announced stream)
  | greeting stage next stream phase _ did =>
    obtain ⟨kept, small⟩ := live.sendMove (lively.greeting stage phase) (sendStep_move did)
    refine ⟨kept, fun stage same => ?_, ?_, ?_⟩
    · cases next <;> simp only [Tunnel.greeted, reduceCtorEq, Phase.greeting.injEq] at same
      · subst same
        exact small
      · subst same
        exact small
    · cases next <;> simp only [Tunnel.greeted]
      · exact lively.uplink
      · exact lively.uplink
      · simp
      · exact lively.uplink
    · cases next <;> simp [Tunnel.greeted]
  | rejected stage stream phase _ did =>
    obtain ⟨kept, -⟩ := live.sendMove (lively.greeting stage phase) (sendStep_move did)
    exact ⟨kept.of_eq rfl rfl rfl, lively_phase lively rfl (by simp)⟩
  | closed stream _ _ did =>
    have kept := live.enqueue (Frame.control_proper _ (by simp)) did
    exact ⟨kept.of_eq rfl rfl rfl, lively_phase lively rfl (by simp)⟩
  | closeFails stream _ _ dead => exact (dead_not dead).elim
  | read bytes =>
    refine ⟨live, lively.greeting, fun stage same => ?_, lively.announced⟩
    cases same
    exact Sending.next_small _
  | readEnds => exact ⟨live, lively.greeting, by simp, lively.announced⟩
  | uplinkSend stage next stream sending _ did =>
    obtain ⟨kept, small⟩ := live.sendMove (lively.uplink stage sending) (sendStep_move did)
    refine ⟨kept, lively.greeting, fun stage same => ?_, lively.announced⟩
    cases next <;> simp only [Uplink.after, reduceCtorEq, Uplink.sending.injEq] at same
    · subst same
      exact small
    · subst same
      exact small
  | recv stream chunk _ _ _ did =>
    obtain ⟨⟨first, inbox⟩, -, same⟩ := Option.map_eq_some_iff.mp did
    cases same
    exact ⟨live.of_eq rfl rfl rfl, lively.of_eq rfl rfl⟩
  | grant stream _ _ _ did =>
    exact ⟨live.enqueue (Frame.grant_proper _ _) did, lively.of_eq rfl rfl⟩
  | grantFails stream _ _ _ dead => exact (dead_not dead).elim
  | leave stream =>
    refine ⟨live.of_eq (remove_out s _) (remove_fed s _) (quiet_remove s _).reader, ?_⟩
    exact lively_phase lively rfl (by simp)
  | _ => exact ⟨live, lively.of_eq rfl rfl⟩

/-- A step that reads nothing: the outbox and what is on the link can only grow. -/
structure Extends (s u : Session) : Prop where
  log : u.log = s.log
  out : s.out.accepted <+: u.out.accepted
  fed : s.fed ≤ u.fed

theorem Extends.refl (s : Session) : Extends s s := ⟨rfl, List.prefix_refl _, Nat.le_refl _⟩

theorem Extends.trans (first : Extends s s') (second : Extends s' u) : Extends s u :=
  ⟨second.log.trans first.log, first.out.trans second.out, Nat.le_trans first.fed second.fed⟩

theorem Extends.of_eq (log : u.log = s.log) (out : u.out.accepted = s.out.accepted)
    (fed : u.fed = s.fed) : Extends s u := by
  exact ⟨log, out ▸ List.prefix_rfl, Nat.le_of_eq fed.symm⟩

theorem extends_enqueue (queued : s.enqueue frame = some u) : Extends s u := by
  obtain ⟨rfl, -, -⟩ := enqueue_eq queued
  exact ⟨rfl, List.prefix_append _ _, Nat.le_refl _⟩

theorem extends_remove (s : Session) (id : UInt32) : Extends s (s.remove id) :=
  .of_eq (quiet_remove s id).log (by rw [remove_out]) (remove_fed s id)

theorem extends_removeAndClose (s : Session) (id : UInt32) : Extends s (s.removeAndClose id) :=
  .of_eq (quiet_removeAndClose s id).log (by rw [removeAndClose_out]) (removeAndClose_fed s id)

theorem extends_step (stepped : s.step act = some u) (tasks : act.isLive = true) : Extends s u := by
  cases step_move stepped with
  | evicts id => exact .of_eq (quiet_removeAndClose s id).log (by simp) (by simp)
  | replies frame _ did => exact (extends_enqueue did).trans (.of_eq rfl rfl rfl)
  | takeBatch count => exact .of_eq rfl rfl rfl
  | feed => exact ⟨rfl, List.prefix_refl _, Nat.le_succ _⟩
  | heard => cases tasks
  | short => cases tasks
  | _ => exact .of_eq rfl rfl rfl

theorem SendMove.extends (move : SendMove s stream stage u next) : Extends s u := by
  cases move with
  | spends => exact .of_eq rfl rfl rfl
  | queues chunk rest did => exact extends_enqueue did
  | _ => exact .refl s

theorem extends_take (took : s.take stream = some (chunk, u)) : Extends s u := by
  obtain ⟨⟨first, inbox⟩, -, same⟩ := Option.map_eq_some_iff.mp took
  cases same
  exact .of_eq rfl rfl rfl

theorem extends_closeStream (closed : s.closeStream stream sent = some u) : Extends s u := by
  obtain ⟨-, queued⟩ | ⟨-, rfl⟩ := closeStream_cases closed
  · exact (extends_removeAndClose s _).trans (extends_enqueue queued)
  · exact extends_removeAndClose s _

theorem AcceptorMove.extends {a b : Acceptor} (move : AcceptorMove a act b) :
    Extends a.session b.session := by
  cases move with
  | proceed stream next _ did => exact did.extends
  | recv stream chunk _ did => exact extends_take did
  | grants stream bytes _ did => exact extends_enqueue did
  | shutdown stream sent _ did => exact extends_closeStream did
  | drop stream sent _ did => exact (extends_closeStream did).trans (.of_eq rfl rfl rfl)
  | _ => exact .refl _

theorem Move.extends (move : Move s t act s' t') : Extends s s' := by
  cases move with
  | reserve _ did =>
    obtain ⟨-, same⟩ := Option.ite_none_left_eq_some.mp did
    cases same
    exact .of_eq rfl rfl rfl
  | allocate => exact .of_eq rfl rfl rfl
  | insert id => exact .of_eq rfl rfl rfl
  | announce stream _ did => exact extends_enqueue did
  | giveUp stream => exact (extends_remove s _).trans (.of_eq rfl rfl rfl)
  | greeting stage next stream _ _ did => exact (sendStep_move did).extends
  | rejected stage stream _ _ did => exact (sendStep_move did).extends.trans (.of_eq rfl rfl rfl)
  | closed stream _ _ did => exact (extends_enqueue did).trans (.of_eq rfl rfl rfl)
  | closeFails stream => exact .of_eq rfl rfl rfl
  | uplinkSend stage next stream _ _ did => exact (sendStep_move did).extends
  | recv stream chunk _ _ _ did => exact extends_take did
  | grant stream _ _ _ did => exact extends_enqueue did
  | leave stream => exact extends_remove s _
  | _ => exact .refl s

/-- What one end has read is a front part of what the other has put on the link. -/
structure Carries (s sender : Session) : Prop where
  front : s.log <+: sender.out.accepted
  within : s.log.length ≤ sender.fed

theorem Carries.grows (carries : Carries s u) (log : s'.log = s.log)
    (out : u.out.accepted <+: u'.out.accepted) (fed : u.fed ≤ u'.fed) : Carries s' u' := by
  refine ⟨?_, ?_⟩
  · rw [log]
    exact carries.front.trans out
  · rw [log]
    exact Nat.le_trans carries.within fed

theorem Carries.extends (carries : Carries s u) (reads : Extends s s') (sends : Extends u u') :
    Carries s' u' := carries.grows reads.log sends.out sends.fed

theorem Carries.of_eq (carries : Carries s u) (log : s'.log = s.log) (out : u'.out = u.out)
    (fed : u'.fed = u.fed) : Carries s' u' := by
  exact carries.grows log (out ▸ List.prefix_rfl) (Nat.le_of_eq fed.symm)

theorem nextFrom_eq (next : s.nextFrom u = some frame) :
    s.log.length < u.fed ∧ u.out.accepted[s.log.length]? = some frame :=
  Option.ite_none_right_eq_some.mp next

theorem Carries.hears (carries : Carries s u) (next : s.nextFrom u = some frame)
    (log : s'.log = s.log ++ [frame]) : Carries s' u := by
  obtain ⟨some, there⟩ := nextFrom_eq next
  refine ⟨?_, ?_⟩
  · rw [log, List.prefix_iff_eq_take, List.length_append, List.length_singleton, List.take_add_one,
      there, ← List.prefix_iff_eq_take.mp carries.front]
    rfl
  · rw [log, List.length_append, List.length_singleton]
    omega

theorem Heard.log (did : Heard s frame u) : u.log = s.log ++ [frame] := by
  cases did with
  | closes => exact (quiet_removeAndClose _ _).log
  | _ => rfl

theorem Heard.fed (did : Heard s frame u) : u.fed = s.fed := by
  cases did with
  | closes => exact removeAndClose_fed _ _
  | _ => rfl

/-- What holds of two joined sessions in every state. -/
structure Pair.Joined (p : Pair) : Prop where
  sound : p.near.Sound
  lively : ∀ name, (p.near.tunnels name).Lively
  nearLive : Live p.near.session
  wired : Wired p.far.session
  farLive : Live p.far.session
  small : ∀ stream, (p.far.sending stream).Small
  toNear : Carries p.near.session p.far.session
  toFar : Carries p.far.session p.near.session

/-- Everything a step of the pair can be. -/
inductive PairMove (p : Pair) : PairAct → Pair → Prop
  | nearLink (act) (tasks : act.isLive = true) (did : p.near.session.step act = some session) :
    PairMove p (.near (.link act)) { p with near := { p.near with session := session } }
  | nearTunnel (name act) (did : Move p.near.session (p.near.tunnels name) act session tunnel) :
    PairMove p (.near (.tunnel name act)) { p with near := p.near.put name session tunnel }
  | farLink (act) (tasks : act.isLive = true) (did : p.far.session.step act = some session) :
    PairMove p (.far (.link act)) { p with far := { p.far with session := session } }
  | farUser (act) (did : AcceptorMove p.far act far) : PairMove p (.far act) { p with far }
  | nearHears (frame) (next : p.near.session.nextFrom p.far.session = some frame)
    (idle : p.near.session.reader = .idle) (did : Heard p.near.session frame session)
    (stepped : p.near.step (.link (.recv frame.encode)) = some { p.near with session := session }) :
    PairMove p .nearHears { p with near := { p.near with session := session } }
  | farHears (frame) (next : p.far.session.nextFrom p.near.session = some frame)
    (idle : p.far.session.reader = .idle) (did : Heard p.far.session frame session)
    (stepped : p.far.session.step (.recv frame.encode) = some session) :
    PairMove p .farHears { p with far := { p.far with session := session } }

/-- A record made of a proper frame is read as that frame. -/
theorem recv_heard (proper : frame.Proper) (stepped : s.step (.recv frame.encode) = some s') :
    s.reader = .idle ∧ Heard s frame s' := by
  have read := Frame.parse_encode proper.named
  cases step_move stepped with
  | short _ idle bad =>
    rw [read] at bad
    cases bad
  | heard _ parsed idle _ same did =>
    rw [read] at same
    cases same
    exact ⟨idle, did⟩

theorem Pair.step_move {p q : Pair} (joined : p.Joined) (stepped : p.step act = some q) :
    PairMove p act q := by
  have sent {s sender : Session} {frame : Frame} (live : Live sender)
      (next : s.nextFrom sender = some frame) : frame.Proper :=
    live.frames frame (List.mem_of_getElem? (nextFrom_eq next).2)
  cases act with
  | near act =>
    cases act with
    | link act =>
      obtain ⟨tasks, did⟩ := Option.ite_none_right_eq_some.mp stepped
      obtain ⟨near, linked, rfl⟩ := Option.map_eq_some_iff.mp did
      obtain ⟨session, moved, rfl⟩ := Option.map_eq_some_iff.mp linked
      exact .nearLink act tasks moved
    | tunnel name act =>
      obtain ⟨near, moved, rfl⟩ := Option.map_eq_some_iff.mp stepped
      obtain ⟨⟨session, tunnel⟩, did, rfl⟩ := Option.map_eq_some_iff.mp moved
      exact .nearTunnel name act (tunnelStep_move did)
  | far act =>
    cases act with
    | link act =>
      obtain ⟨tasks, did⟩ := Option.ite_none_right_eq_some.mp stepped
      obtain ⟨far, linked, rfl⟩ := Option.map_eq_some_iff.mp did
      obtain ⟨session, moved, rfl⟩ := Option.map_eq_some_iff.mp linked
      exact .farLink act tasks moved
    | _ =>
      obtain ⟨far, did, rfl⟩ := Option.map_eq_some_iff.mp stepped
      exact .farUser _ (acceptorStep_move (by simp) did)
  | nearHears =>
    obtain ⟨frame, next, did⟩ := Option.bind_eq_some_iff.mp stepped
    obtain ⟨near, heard, rfl⟩ := Option.map_eq_some_iff.mp did
    obtain ⟨session, read, rfl⟩ := Option.map_eq_some_iff.mp heard
    obtain ⟨idle, did⟩ := recv_heard (sent joined.farLive next) read
    exact .nearHears frame next idle did heard
  | farHears =>
    obtain ⟨frame, next, did⟩ := Option.bind_eq_some_iff.mp stepped
    obtain ⟨far, heard, rfl⟩ := Option.map_eq_some_iff.mp did
    obtain ⟨session, read, rfl⟩ := Option.map_eq_some_iff.mp heard
    obtain ⟨idle, did⟩ := recv_heard (sent joined.nearLive next) read
    exact .farHears frame next idle did read

theorem SendMove.wired (move : SendMove s stream stage s' next) (wired : Wired s) : Wired s' := by
  cases move with
  | spends =>
    exact wired.quiet (quiet_modify _ _ _ rfl rfl rfl fun opened => opened)
      (wired.valid.alike (alike_modify _ _ _ rfl rfl))
  | queues chunk rest did => exact wired.quiet (quiet_enqueue did) (wired.valid.alike (alike_enqueue did))
  | _ => exact wired

theorem wired_hangUp (wired : Wired s) (stream : Nat) : Wired (s.hangUp stream) :=
  wired.quiet (quiet_hangUp s stream) (wired.valid.alike (alike_hangUp s stream))

theorem wired_closeStream (wired : Wired s) (closed : s.closeStream stream sent = some s') :
    Wired s' := by
  have removed := wired.quiet (quiet_removeAndClose s (s.arena stream).id)
    (valid_removeAndClose wired.valid _)
  obtain ⟨-, queued⟩ | ⟨-, rfl⟩ := closeStream_cases closed
  · exact removed.quiet (quiet_enqueue queued) (removed.valid.alike (alike_enqueue queued))
  · exact removed

theorem live_closeStream (live : Live s) (closed : s.closeStream stream sent = some s') :
    Live s' := by
  have removed : Live (s.removeAndClose (s.arena stream).id) :=
    live.of_eq (removeAndClose_out s _) (removeAndClose_fed s _) (quiet_removeAndClose s _).reader
  obtain ⟨-, queued⟩ | ⟨-, rfl⟩ := closeStream_cases closed
  · exact removed.enqueue (Frame.control_proper _ (by simp)) queued
  · exact removed

theorem AcceptorMove.kept {a b : Acceptor} (move : AcceptorMove a act b) (wired : Wired a.session)
    (live : Live a.session) (small : ∀ stream, (a.sending stream).Small) :
    Wired b.session ∧ Live b.session ∧ ∀ stream, (b.sending stream).Small := by
  have updated (aim : Nat) {next : Sending} (fits : next.Small) (stream : Nat) :
      (Function.update a.sending aim next stream).Small := by
    rw [Function.update_apply]
    split
    · exact fits
    · exact small stream
  cases move with
  | send stream data => exact ⟨wired, live, updated stream (Sending.next_small data)⟩
  | proceed stream next _ did =>
    obtain ⟨kept, fits⟩ := live.sendMove (small stream) did
    exact ⟨did.wired wired, kept, updated stream fits⟩
  | recv stream chunk _ did =>
    refine ⟨wired.quiet (quiet_take did) (wired.valid.alike (alike_take did)), ?_, small⟩
    obtain ⟨⟨first, inbox⟩, -, same⟩ := Option.map_eq_some_iff.mp did
    cases same
    exact live.of_eq rfl rfl rfl
  | grants stream bytes _ did =>
    exact ⟨wired.quiet (quiet_enqueue did) (wired.valid.alike (alike_enqueue did)),
      live.enqueue (Frame.grant_proper _ _) did, small⟩
  | owes => exact ⟨wired, live, small⟩
  | shutdown stream sent _ did =>
    exact ⟨wired_closeStream wired did, live_closeStream live did, small⟩
  | drop stream sent _ did =>
    exact ⟨wired_hangUp (wired_closeStream wired did) stream,
      (live_closeStream live did).of_eq rfl rfl rfl, updated stream trivial⟩

theorem PairMove.joined {p q : Pair} (joined : p.Joined) (move : PairMove p act q) : q.Joined := by
  obtain ⟨sound, lively, nearLive, wired, farLive, small, toNear, toFar⟩ := joined
  cases move with
  | nearLink act tasks did =>
    have grown := extends_step did tasks
    have stepped : p.near.step (.link act) = some _ := congrArg (Option.map _) did
    exact ⟨sound.step stepped, lively,
      nearLive.step tasks did, wired, farLive, small, toNear.extends grown (.refl _),
      toFar.extends (.refl _) grown⟩
  | nearTunnel name act did =>
    have grown := did.extends
    obtain ⟨live, kept⟩ := did.live nearLive (lively name)
    refine ⟨sound.move did, fun other => ?_, live, wired, farLive, small,
      toNear.extends grown (.refl _), toFar.extends (.refl _) grown⟩
    by_cases same : other = name
    · subst same
      rw [Proxy.put_self]
      exact kept
    · rw [Proxy.put_other _ same]
      exact lively other
  | farLink act tasks did =>
    have grown := extends_step did tasks
    exact ⟨sound, lively, nearLive, wired_step wired did, farLive.step tasks did, small,
      toNear.extends (.refl _) grown, toFar.extends grown (.refl _)⟩
  | farUser act did =>
    have grown := did.extends
    obtain ⟨wired, farLive, small⟩ := did.kept wired farLive small
    exact ⟨sound, lively, nearLive, wired, farLive, small, toNear.extends (.refl _) grown,
      toFar.extends grown (.refl _)⟩
  | nearHears frame next idle did stepped =>
    exact ⟨sound.step stepped, lively, nearLive.heard did, wired, farLive, small,
      toNear.hears next did.log, toFar.of_eq rfl did.out did.fed⟩
  | farHears frame next idle did stepped =>
    exact ⟨sound, lively, nearLive, wired_step wired stepped, farLive.heard did, small,
      toNear.of_eq rfl did.out did.fed, toFar.hears next did.log⟩


end DshProxy.Mux

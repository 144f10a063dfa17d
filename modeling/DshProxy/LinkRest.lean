import DshProxy.LinkWork
import DshProxy.MuxCredit

/-! Two joined ends at rest. Where no task can take a step of its own, nothing has been
left on the way: what is queued has been heard, what has been heard for a client has
been shown to it, and whoever still has something to send waits for credit that only
the other end's user can give. -/
namespace DshProxy.Mux
open Sync Wire Transitions

variable {transport : Transport} {c : Cable} {s s' u u' : Session} {t t' : Tunnel} {n : Nat}

/-! Where a task can take no step, it has nothing to do. -/

/-- There is room in the cable for another frame. -/
theorem feed_can (live : Live s) (some : s.fed < s.out.taken) (room : c.staged.length < backpressureBoundary) :
    s.onCable transport c .feed ≠ none := by
  have within : s.fed < s.out.accepted.length := Nat.lt_of_lt_of_le some s.out.within
  have there : s.out.accepted[s.fed]? = Option.some s.out.accepted[s.fed] := List.getElem?_eq_getElem within
  have proper := live.frames _ (List.mem_of_getElem? there)
  have feeds : c.feed transport s.out.accepted[s.fed] = Option.some
      ({ c with
        encoder := ⟨(c.encoder.nonce + 1) % 2 ^ 64, s.out.accepted[s.fed].encode⟩
        staged := c.staged ++ record transport c.encoder.nonce s.out.accepted[s.fed] }, true) := by
    rw [Cable.feed, if_pos room, encode_seals proper.sealable]
  simp [Session.onCable, there, feeds, Session.step, some, live.opened]

/-- A writer that has to flush a buffer of which a full socket takes nothing. -/
structure Session.Blocked (s : Session) (c : Cable) (room : Nat) : Prop where
  flushes : s.Flushes c
  staged : c.staged ≠ []
  full : room ≤ c.flight.length

/-- A writer that can take no step has fed and flushed everything, or is blocked. -/
theorem writer_rests {room : Nat} (live : Live s) (tasks : ∀ act, s.onCable transport c act = none)
    (writes : s.Flushes c → ∀ count, c.flight.length + count ≤ room → c.write count = none) :
    (c.staged = [] ∧ s.fed = s.out.accepted.length ∧ s.out.taken = s.out.accepted.length) ∨ s.Blocked c room := by
  by_cases flushed : c.staged = []
  · have fed : s.fed = s.out.taken := by
      by_contra some
      have below := live.fed
      refine feed_can live (by omega) ?_ (tasks .feed)
      rw [flushed]
      decide
    have taken : s.out.taken = s.out.accepted.length := by
      by_contra some
      have within := s.out.within
      have waiting : 1 ≤ s.out.len := by
        simp only [Channel.len]
        omega
      have can := tasks (.takeBatch 1)
      have batch : 1 ≤ min writeBatch s.out.len := Nat.le_min.mpr ⟨by decide, waiting⟩
      rw [Session.onCable, if_pos flushed, Session.step, if_pos ⟨fed, by decide, batch, live.opened⟩] at can
      cases can
    exact .inl ⟨flushed, fed.trans taken, taken⟩
  · have flushes : s.Flushes c := by
      by_contra feeds
      simp only [Session.Flushes, not_or, Nat.not_le] at feeds
      have fed := live.fed
      exact feed_can live (by omega) feeds.2 (tasks .feed)
    refine .inr ⟨flushes, flushed, ?_⟩
    by_contra free
    have can := writes flushes 1 (by omega)
    rw [Cable.write, if_pos ⟨by decide, List.length_pos_iff.mpr flushed⟩] at can
    cases can

theorem enqueue_can (live : Live s) (room : s.out.len < outboxFrames) (frame : Frame) :
    ∃ s', s.enqueue frame = some s' := by
  rw [Session.enqueue, if_pos ⟨live.opened, room⟩]
  exact ⟨_, rfl⟩

/-- An awaited send does not wait: there is a place for it, or the outbox is dead. -/
def Session.Prompt (s : Session) : Prop := s.out.isOpen = true → s.out.len < outboxFrames

theorem sends_can (prompt : s.Prompt) (frame : Frame) (ok error : β) : s.sends frame ok error ≠ none := by
  unfold Session.sends
  split
  · rename_i opened
    simp [Session.enqueue, opened, prompt opened]
  · simp

/-- A reader that can take no step waits for the next frame, or for a place in the
outbox. -/
theorem reader_rests (live : Live s) (tasks : ∀ act, s.onCable transport c act = none) :
    s.reader = .idle ∨ s.reader.replies ≠ none ∧ outboxFrames ≤ s.out.len := by
  have alive := live.reader
  have advances := tasks .advance
  have replies := tasks .reply
  simp only [Session.onCable, Session.Act.isLive, if_true, Option.map_eq_none_iff, Session.step] at advances replies
  have full (frame : Frame) (stuck : s.readerSends frame = none) : outboxFrames ≤ s.out.len := by
    by_contra room
    obtain ⟨s', queued⟩ := enqueue_can live (Nat.lt_of_not_le room) frame
    simp [Session.readerSends, live.opened, queued] at stuck
  cases stands : s.reader with
  | idle => exact .inl rfl
  | echo =>
    simp only [stands] at replies
    exact .inr ⟨by simp [Reader.replies], full _ replies⟩
  | refuse id stream =>
    simp only [stands] at replies
    exact .inr ⟨by simp [Reader.replies], full _ replies⟩
  | accepting id =>
    simp only [stands] at advances
    cases advances
  | offer id stream body =>
    simp only [stands] at advances
    split at advances <;> cases advances
  | overflow id stream =>
    simp only [stands] at advances
    cases advances
  | dying | aborting | ended =>
    rw [stands] at alive
    cases alive

/-- The tasks of a session have nothing to do: the outbox is on the link, the reader
waits for a frame, and no removed stream still has its slot. -/
structure Session.Rested (s : Session) : Prop where
  idle : s.reader = .idle
  freed : s.limbo = 0
  taken : s.out.taken = s.out.accepted.length
  fed : s.fed = s.out.accepted.length

instance (s : Session) : Decidable s.Rested :=
  decidable_of_iff (s.reader = .idle ∧ s.limbo = 0 ∧ s.out.taken = s.out.accepted.length ∧
    s.fed = s.out.accepted.length)
    ⟨fun ⟨idle, freed, taken, fed⟩ => ⟨idle, freed, taken, fed⟩,
      fun rested => ⟨rested.idle, rested.freed, rested.taken, rested.fed⟩⟩

theorem Session.Rested.room (rested : s.Rested) : s.out.len = 0 := by
  simp [Channel.len, rested.taken]

theorem Session.Rested.prompt (rested : s.Rested) : s.Prompt := fun _ => by
  rw [rested.room]
  decide

theorem Session.Rested.free (rested : s.Rested) : s.reader.holds = none := by
  rw [rested.idle]
  rfl

theorem session_rests {room : Nat} (live : Live s) (tasks : ∀ act, s.onCable transport c act = none)
    (writes : s.Flushes c → ∀ count, c.flight.length + count ≤ room → c.write count = none) :
    (c.staged = [] ∧ s.Rested) ∨ s.Blocked c room := by
  obtain ⟨flushed, fed, taken⟩ | blocked := writer_rests live tasks writes
  · refine .inl ⟨flushed, ?_, ?_, taken, fed⟩
    · obtain idle | ⟨-, full⟩ := reader_rests live tasks
      · exact idle
      · simp [Channel.len, taken, outboxFrames] at full
    · by_contra some
      have frees := tasks .release
      have some : 0 < s.limbo := by omega
      simp [Session.onCable, Session.Act.isLive, Session.step, some] at frees
  · exact .inr blocked

/-- And such tasks can take no step. -/
theorem Session.Rested.stuck (rested : s.Rested) (flushed : c.staged = []) (act : Session.Act) :
    s.onCable transport c act = none := by
  have room := rested.room
  cases act with
  | takeBatch count =>
    simp only [Session.onCable, Session.step, room, flushed, if_true, Option.map_eq_none_iff]
    exact if_neg fun can => by omega
  | feed => simp [Session.onCable, rested.fed]
  | advance | reply | release =>
    simp [Session.onCable, Session.Act.isLive, Session.step, rested.idle, rested.freed]
  | _ => rfl

/-- A reader that waits for a frame and can get nothing has an empty socket. -/
theorem reader_drains (live : Live s) (conveys : c.Conveys transport s u)
    (opens : ∀ nonce plain, transport.readMessage nonce (transport.writeMessage nonce plain) = .ok plain)
    (idle : u.reader = .idle) (reads : (c.next transport).isNone → ∀ count, c.arrive count = none)
    (hears : u.atCable transport c = none) :
    c.flight = [] ∧ (c.staged = [] → u.log.length = s.fed) := by
  obtain ⟨waits, read⟩ | ⟨c', frame, came, next, -⟩ := conveys.next live.frames opens
  · have drained : c.flight = [] := by
      by_contra some
      have can := reads (by rw [waits]; rfl) c.flight.length
      rw [Cable.arrive, if_pos ⟨List.length_pos_iff.mpr some, Nat.le_refl _⟩] at can
      cases can
    exact ⟨drained, read drained⟩
  · have proper := live.frames frame (List.mem_of_getElem? (nextFrom_eq next).2)
    have sealable := proper.sealable
    have small : frame.encode.length ≤ maxNoiseMsg - tagLen := by
      have fits := sealable.size
      simp only [maxNoiseMsg, tagLen] at fits ⊢
      omega
    rw [Session.atCable, if_pos idle, came, Option.bind_some] at hears
    simp only [Option.map_eq_none_iff, Session.step] at hears
    rw [if_pos ⟨idle, small⟩, Frame.parse_encode proper.named] at hears
    cases hears

/-- What a rested end has put on the link has all been heard. -/
theorem hears_all (carries : Carries u s) (read : u.log.length = s.fed) (rested : s.Rested) :
    u.log = s.out.accepted :=
  carries.front.eq_of_length (read.trans rested.fed)

/-- A tunnel is not in the middle of something that is over, and its preamble has its
length. -/
structure Tunnel.Poised (t : Tunnel) : Prop where
  head : t.phase ≠ .idle → t.head.length = headLen
  opening : ∀ stage, t.phase = .opening stage → stage ≠ .refused ∧ ∀ n, stage ≠ .opened n
  greeting : ∀ stage, t.phase = .greeting stage → stage.isOver = false
  uplink : ∀ stage, t.uplink = .sending stage → stage.isOver = false

theorem Sending.next_going {data : Bytes} (some : data ≠ []) : (Sending.next data).isOver = false := by
  rw [Sending.next, if_neg some]
  rfl

/-- A change of the phase to one that is not a send. -/
private theorem poised_phase (poised : t.Poised) {phase : Phase} (began : t.phase ≠ .idle)
    (opening : ∀ stage, phase = .opening stage → stage ≠ .refused ∧ ∀ n, stage ≠ .opened n)
    (greeting : phase.sends = none) {stream : Option Nat} : ({ t with phase, stream } : Tunnel).Poised := by
  refine ⟨fun _ => poised.head began, opening, fun stage same => ?_, poised.uplink⟩
  rw [show phase = _ from same] at greeting
  cases greeting

theorem Move.poised {act : TunnelAct} (move : Move s t act s' t') (poised : t.Poised) : t'.Poised := by
  have began {phase : Phase} (here : t.phase = phase) (other : phase ≠ .idle) : t.phase ≠ .idle :=
    fun idle => other (here.symm.trans idle)
  have uplink {next : Uplink} {reads : Bytes} (going : ∀ stage, next = .sending stage → stage.isOver = false) :
      ({ t with uplink := next, reads } : Tunnel).Poised :=
    ⟨poised.head, poised.opening, poised.greeting, going⟩
  have downlink {next : Downlink} {pending granted : Nat} {writes : Bytes} :
      ({ t with downlink := next, pending, granted, writes } : Tunnel).Poised :=
    ⟨poised.head, poised.opening, poised.greeting, poised.uplink⟩
  cases move with
  | begin head idle whole =>
    refine ⟨fun _ => whole, fun stage same => ?_, fun stage same => ?_, poised.uplink⟩
    · cases same
      simp
    · cases same
  | reserve phase | refused phase | allocate phase | insert _ phase | announceFails _ phase | giveUp _ phase
  | rejected _ _ phase | closed _ phase | closeFails _ phase | leave _ phase =>
    exact poised_phase poised (began phase (by simp)) (by simp) rfl
  | announce stream phase =>
    have head := poised.head (began phase (by simp))
    refine ⟨fun _ => head, by simp, fun stage same => ?_, poised.uplink⟩
    cases same
    refine Sending.next_going fun none => ?_
    rw [none] at head
    cases head
  | greeting stage next stream phase =>
    have head := poised.head (began phase (by simp))
    cases next with
    | sent => exact ⟨fun _ => head, by simp [Tunnel.greeted], by simp [Tunnel.greeted], by simp [Tunnel.greeted]⟩
    | broken =>
      exact poised_phase poised (began phase (by simp)) (by simp) rfl
    | acquire | queue =>
      refine ⟨fun _ => head, by simp [Tunnel.greeted], fun stage same => ?_, poised.uplink⟩
      cases same
      rfl
  | read bytes _ some =>
    refine uplink fun stage same => ?_
    cases same
    exact Sending.next_going some
  | readEnds => exact uplink (by simp)
  | uplinkSend stage next =>
    refine uplink fun stage same => ?_
    cases next <;> cases same <;> rfl
  | _ => exact downlink

/-- What a tunnel has not spent credit for yet of what it sends before `select!`. -/
def Sending.unspent : Sending → Nat
  | .acquire rest | .queue _ rest => rest.length
  | .sent | .broken => 0

theorem Sending.unspent_next (data : Bytes) : (Sending.next data).unspent ≤ data.length := by
  unfold Sending.next
  split
  · exact Nat.zero_le _
  · exact Nat.le_refl _

def Phase.unspent (head : Bytes) : Phase → Nat
  | .opening (.announce _) => head.length
  | .greeting stage => stage.unspent
  | _ => 0

/-- The preamble never waits for credit: the window is for the tunnel alone, and
nothing has been sent before it. -/
def Session.Affords (s : Session) (t : Tunnel) : Prop :=
  ∀ n, t.stream = some n → t.phase.unspent t.head ≤ (s.arena n).credit.permits

theorem permits_enqueue {frame : Frame} (queued : s.enqueue frame = some s') :
    (s'.arena n).credit = (s.arena n).credit := by
  rw [enqueue_arena queued]

theorem permits_hangUp (s : Session) (stream : Nat) : ((s.hangUp stream).arena n).credit = (s.arena n).credit :=
  modify_kept s Stream.credit rfl n

/-- What a link step does to a stream's credit: it adds to it. -/
theorem step_permits_le {act : Session.Act} (stepped : s.step act = some s') (known : n < s.created) :
    (s.arena n).credit.permits ≤ (s'.arena n).credit.permits := by
  have same (kept : (s'.arena n).credit = (s.arena n).credit) :
      (s.arena n).credit.permits ≤ (s'.arena n).credit.permits := by rw [kept]
  cases step_move stepped with
  | heard plain frame _ _ _ did =>
    cases did with
    | grants aim =>
      by_cases here : n = aim
      · subst here
        simp [Session.modify]
      · rw [arena_modify_other _ _ here]
    | closes => exact Nat.le_of_eq (credit_removeAndClose { s with log := s.log ++ [frame] } frame.id n).symm
    | _ => exact Nat.le_refl _
  | admits id => exact same (by rw [show (_ : Session).arena n = _ from arena_insert s id known])
  | admitsNobody id =>
    have new : n ≠ s.created := Nat.ne_of_lt known
    refine same ?_
    simp [Session.modify, Session.insert, new]
  | delivers id stream body =>
    exact Nat.le_of_eq (permits_modify s stream
      (fun st => { st with inbox := (s.arena stream).inbox.push body }) n rfl).symm
  | evicts id => exact Nat.le_of_eq (credit_removeAndClose s id n).symm
  | dies | shutdownClear =>
    simp only [Session.clear]
    split <;> exact Nat.le_refl _
  | replies frame _ did =>
    have kept := congrArg (fun arena => (arena n).credit) (enqueue_arena did)
    exact same kept
  | _ => exact Nat.le_refl _

/-- A piece of a send spends what the send had not spent yet. -/
theorem SendMove.permits {stage next : Sending} (move : SendMove s n stage s' next) :
    next.unspent + (s.arena n).credit.permits ≤ stage.unspent + (s'.arena n).credit.permits ∧
      ∀ k, k ≠ n → (s'.arena k).credit = (s.arena k).credit := by
  cases move with
  | spends rest gate enough =>
    refine ⟨?_, fun k other => by rw [arena_modify_other s _ other]⟩
    simp only [Sending.unspent, List.length_drop, Session.modify, Function.update_self]
    omega
  | shut rest => exact ⟨Nat.add_le_add_right (Nat.zero_le _) _, fun _ _ => rfl⟩
  | queues chunk rest did =>
    refine ⟨?_, fun k _ => permits_enqueue did⟩
    rw [permits_enqueue did]
    exact Nat.add_le_add_right (Sending.unspent_next rest) _
  | dead chunk rest => exact ⟨Nat.add_le_add_right (Nat.zero_le _) _, fun _ _ => rfl⟩

/-- With an uplink there is nothing to be sent before `select!`. -/
private theorem unspent_going (fits : t.Fits) (going : t.uplink ≠ .off) : t.phase.unspent t.head = 0 := by
  have early := fits.early
  cases phase : t.phase with
  | opening | greeting =>
    rw [phase] at early
    exact absurd early.1 going
  | _ => rfl

/-- A tunnel keeps back what its preamble costs. -/
theorem Move.affords {act : TunnelAct} (move : Move s t act s' t') (fits : t.Fits) (poised : t.Poised)
    (affords : s.Affords t) : s'.Affords t' := by
  have spent (nothing : t'.phase.unspent t'.head = 0) : s'.Affords t' := fun n _ => by
    rw [nothing]
    exact Nat.zero_le _
  have going (on : t.uplink ≠ .off) : t.phase.unspent t.head = 0 := unspent_going fits on
  have running (phase : t.phase = .running) : t.phase.unspent t.head = 0 := by
    rw [phase]
    rfl
  cases move with
  | insert id phase =>
    intro n own
    cases own
    have head := poised.head (by rw [phase]; simp)
    simp only [Phase.unspent, Session.insert, Function.update_self, head]
    decide
  | announce stream phase did =>
    intro n own
    have enough := affords n own
    rw [permits_enqueue did]
    rw [phase] at enough
    exact Nat.le_trans (Sending.unspent_next t.head) enough
  | greeting stage next stream phase own did =>
    have enough := affords stream own
    have after := ((sendStep_move did).permits).1
    intro n mine
    have same : stream = n := by
      cases next <;> exact Option.some.inj (own.symm.trans mine)
    subst same
    rw [phase] at enough
    have left : (t.greeted next).phase.unspent (t.greeted next).head ≤ next.unspent := by
      cases next <;> exact Nat.le_refl _
    simp only [Phase.unspent] at enough
    omega
  | read _ reading | readEnds reading => exact spent (going (by simp [reading]))
  | uplinkSend stage next stream sending => exact spent (going (by simp [sending]))
  | recv _ _ phase | recvEnds _ phase | write _ _ _ _ phase | writeFails _ _ _ phase | wrote _ _ phase
  | grant _ phase | grantFails _ phase | shutdownDone _ phase => exact spent (running phase)
  | _ => exact spent rfl

/-- A tunnel spends and gives credit of its own stream alone. -/
theorem Move.credit_other {act : TunnelAct} (move : Move s t act s' t') (known : n < s.created)
    (other : t.stream ≠ some n) : (s'.arena n).credit = (s.arena n).credit := by
  have away {stream : Nat} (own : t.stream = some stream) : n ≠ stream := fun same => other (same ▸ own)
  have hangs (s : Session) (stream : Nat) : ((s.hangUp stream).arena n).credit = (s.arena n).credit :=
    permits_hangUp s stream
  cases move with
  | reserve _ did =>
    obtain ⟨-, same⟩ := Option.ite_none_left_eq_some.mp did
    cases same
    rfl
  | insert id => rw [arena_insert s id known]
  | announce stream _ did => exact permits_enqueue did
  | giveUp stream => rw [hangs, arena_remove]
  | greeting stage next stream _ own did | uplinkSend stage next stream _ own did =>
    exact (sendStep_move did).permits.2 n (away own)
  | rejected stage stream _ own did =>
    rw [hangs]
    exact (sendStep_move did).permits.2 n (away own)
  | closed stream _ own did =>
    rw [hangs]
    exact permits_enqueue did
  | closeFails stream => exact hangs s stream
  | recv stream chunk _ own _ did =>
    obtain ⟨⟨first, inbox⟩, -, same⟩ := Option.map_eq_some_iff.mp did
    cases same
    rw [arena_modify_other s _ (away own)]
  | grant stream _ _ _ did => exact permits_enqueue did
  | leave stream => rw [arena_remove]
  | _ => rfl

/-- What keeps the tunnels of a link going. -/
structure Proxy.Ready (near : Proxy) : Prop where
  poised : ∀ name, (near.tunnels name).Poised
  affords : ∀ name, near.session.Affords (near.tunnels name)

theorem Proxy.Ready.start (maxStreams : Nat) : (Proxy.start maxStreams).Ready := by
  refine ⟨fun name => ⟨fun begun => absurd rfl begun, ?_, ?_, ?_⟩, fun name n own => ?_⟩
  · intro stage opening
    cases opening
  · intro stage greeting
    cases greeting
  · intro stage sending
    cases sending
  · cases own

private theorem ready_link {near : Proxy} {act : Session.Act} (ready : near.Ready) (sound : near.Sound)
    (stepped : near.session.step act = some s') : ({ near with session := s' } : Proxy).Ready := by
  refine ⟨ready.poised, fun name n own => ?_⟩
  exact Nat.le_trans (ready.affords name n own) (step_permits_le stepped (sound.known own))

theorem Proxy.Ready.step {near next : Proxy} {act : ProxyAct} (ready : near.Ready) (sound : near.Sound)
    (stepped : near.step act = some next) : next.Ready := by
  cases act with
  | link act =>
    obtain ⟨session, did, rfl⟩ := Option.map_eq_some_iff.mp stepped
    exact ready_link ready sound did
  | tunnel name act =>
    obtain ⟨⟨session, tunnel⟩, did, rfl⟩ := Option.map_eq_some_iff.mp stepped
    have move := tunnelStep_move did
    refine ⟨fun other => ?_, fun other => ?_⟩
    · by_cases here : other = name
      · rw [here, Proxy.put_self]
        exact move.poised (ready.poised name)
      · rw [Proxy.put_other _ here]
        exact ready.poised other
    · by_cases here : other = name
      · rw [here, Proxy.put_self]
        exact move.affords (sound.fits name) (ready.poised name) (ready.affords name)
      · rw [Proxy.put_other _ here]
        intro n own
        have away : (near.tunnels name).stream ≠ some n := fun mine => here (sound.apart own mine)
        rw [Proxy.put_session, move.credit_other (sound.known own) away]
        exact ready.affords other n own

/-! What a tunnel and a send that can take no step wait for. -/

/-- The send waits for more credit than there is. -/
def Session.Starves (s : Session) (n : Nat) : Sending → Prop
  | .acquire rest => (s.arena n).credit.closed = false ∧ (s.arena n).credit.permits < min rest.length maxPayload
  | _ => False

theorem send_rests {stage : Sending} (prompt : s.Prompt) (stuck : s.sendStep n stage = none) :
    stage.isOver = true ∨ s.Starves n stage := by
  cases stage with
  | acquire rest =>
    simp only [Session.sendStep] at stuck
    split at stuck
    · cases stuck
    · rename_i gate
      rw [Option.map_eq_none_iff, Semaphore.acquireMany] at stuck
      split at stuck
      · cases stuck
      · rename_i lacking
        have gate : (s.arena n).credit.closed = false := by simpa using gate
        exact .inr ⟨gate, by simpa [gate] using lacking⟩
  | queue chunk rest => exact absurd stuck (sends_can prompt _ _ _)
  | sent | broken => exact .inl rfl

/-- A tunnel that can take no step of its own: it has not been begun or has returned,
or it runs. Its client has been shown everything, and what the client said has been
passed on, but for what there is no credit for. -/
structure Tunnel.Waits (t : Tunnel) (s : Session) : Prop where
  phase : t.phase = .idle ∨ t.phase = .running ∨ t.phase = .returned
  uplink : ∀ stage, t.uplink = .sending stage → ∃ n, t.stream = some n ∧ s.Starves n stage
  running : t.phase = .running → t.uplink ≠ .off ∧ t.uplink ≠ .ended ∧ t.downlink = .waiting ∧
    ∃ n, t.stream = some n ∧ (s.arena n).inbox.queue = [] ∧ s.streams (s.arena n).id = some n

/-- The caller's steps before and after `select!` are never held up: the open waits
for nothing but a place in the outbox, the preamble has credit. -/
theorem caller_rests (prompt : s.Prompt) (fits : t.Fits) (poised : t.Poised)
    (affords : s.Affords t) (stuck : s.callerStep t = none) :
    t.phase = .idle ∨ t.phase = .running ∨ t.phase = .returned := by
  have place := fits.place
  cases phase : t.phase with
  | idle | running | returned => simp
  | opening stage =>
    simp only [Session.callerStep, phase, Option.map_eq_none_iff] at stuck
    obtain ⟨going, unopened⟩ := poised.opening stage phase
    cases stage with
    | reserve =>
      simp only [Session.openStep] at stuck
      split at stuck <;> cases stuck
    | announce stream => exact absurd stuck (sends_can prompt _ _ _)
    | allocate | insert | giveUp => cases stuck
    | refused => exact absurd rfl going
    | opened n => exact absurd rfl (unopened n)
  | greeting stage =>
    rw [phase] at place
    obtain ⟨n, own⟩ := Option.ne_none_iff_exists'.mp place
    simp only [Session.callerStep, phase, own, Option.map_eq_none_iff] at stuck
    have enough := affords n own
    obtain finished | starves := send_rests prompt stuck
    · rw [poised.greeting stage phase] at finished
      cases finished
    · cases stage with
      | acquire rest =>
        rw [phase] at enough
        simp only [Phase.unspent, Sending.unspent] at enough
        have lacking := starves.2
        omega
      | _ => cases starves
  | closing =>
    rw [phase] at place
    obtain ⟨n, own⟩ := Option.ne_none_iff_exists'.mp place
    simp only [Session.callerStep, phase, own, Option.map_eq_none_iff] at stuck
    exact absurd stuck (sends_can prompt _ _ _)

theorem uplink_rests {stage : Sending} (prompt : s.Prompt) (fits : t.Fits) (poised : t.Poised)
    (sending : t.uplink = .sending stage) (stuck : s.tunnelStep t .uplinkSend = none) :
    ∃ n, t.stream = some n ∧ s.Starves n stage := by
  have served : t.stream ≠ none := fun free => by
    have blank := congrArg Tunnel.uplink (fits.blank free)
    rw [sending] at blank
    cases blank
  obtain ⟨n, own⟩ := Option.ne_none_iff_exists'.mp served
  simp only [Session.tunnelStep, Session.uplinkStep, sending, own, Option.map_eq_none_iff] at stuck
  obtain finished | starves := send_rests prompt stuck
  · rw [poised.uplink stage sending] at finished
    cases finished
  · exact ⟨n, own, starves⟩

theorem downlink_rests (prompt : s.Prompt) (free : s.reader.holds = none) (running : t.phase = .running)
    (own : t.stream = some n) (tasks : ∀ act, act.isOwn = true → s.tunnelStep t act = none) :
    t.uplink ≠ .ended ∧ t.downlink = .waiting ∧ (s.arena n).inbox.queue = [] ∧
      s.streams (s.arena n).id = some n := by
  have steps (act : TunnelAct) (mine : act.isOwn = true) := tasks act mine
  have leaves := steps .leave rfl
  simp only [Session.tunnelStep, running, own] at leaves
  have left : ¬ (t.uplink = .ended ∨ t.downlink.isEnded = true) := fun finished => by
    rw [if_pos finished] at leaves
    cases leaves
  cases downlink : t.downlink with
  | waiting =>
    have takes := steps .recv rfl
    have ends := steps .recvEnds rfl
    simp only [Session.tunnelStep, running, own, Session.downlinkStep, downlink, if_true, true_and,
      Option.map_eq_none_iff, Session.take] at takes ends
    have empty : (s.arena n).inbox.queue = [] := by
      cases waiting : (s.arena n).inbox.queue with
      | nil => rfl
      | cons chunk later => simp [Channel.recv, waiting] at takes
    have fed : s.Feeds n := by
      by_contra starved
      rw [if_pos ⟨empty, starved⟩] at ends
      cases ends
    refine ⟨fun ended => left (.inl ended), rfl, empty, ?_⟩
    obtain found | held := fed
    · exact found
    · rw [free] at held
      cases held
  | writing rest size =>
    cases rest with
    | nil =>
      have wrote := steps .wrote rfl
      simp only [Session.tunnelStep, running, own, Session.downlinkStep, downlink] at wrote
      cases wrote
    | cons byte rest =>
      have writes := steps (.write 1) rfl
      simp [Session.tunnelStep, running, own, Session.downlinkStep, downlink] at writes
  | granting =>
    have grants := steps .grant rfl
    simp only [Session.tunnelStep, running, own, Session.downlinkStep, downlink, if_true] at grants
    exact absurd grants (sends_can prompt _ _ _)
  | shutting unwritten =>
    have done := steps .shutdownDone rfl
    simp only [Session.tunnelStep, running, own, Session.downlinkStep, downlink] at done
    cases done
  | ended unwritten => exact absurd (.inr (by rw [downlink]; rfl)) left

theorem tunnel_rests (prompt : s.Prompt) (free : s.reader.holds = none) (fits : t.Fits)
    (poised : t.Poised) (affords : s.Affords t)
    (tasks : ∀ act, act.isOwn = true → s.tunnelStep t act = none) : t.Waits s := by
  refine ⟨caller_rests prompt fits poised affords (tasks .proceed rfl), fun stage sending => ?_,
    fun running => ?_⟩
  · exact uplink_rests prompt fits poised sending (tasks .uplinkSend rfl)
  · have place := fits.place
    have early := fits.early
    rw [running] at place early
    obtain ⟨n, own⟩ := Option.ne_none_iff_exists'.mp place
    obtain ⟨going, waiting, empty, found⟩ := downlink_rests prompt free running own tasks
    exact ⟨early, going, waiting, n, own, empty, found⟩

theorem waits_unbegun (s : Session) : ({} : Tunnel).Waits s := by
  refine ⟨.inl rfl, fun stage sending => ?_, fun running => ?_⟩
  · cases sending
  · cases running

/-- A send that waits can take no step. -/
theorem send_stuck {stage : Sending} (waits : stage.isOver = true ∨ s.Starves n stage) :
    s.sendStep n stage = none := by
  cases stage with
  | acquire rest =>
    obtain finished | ⟨gate, lacking⟩ := waits
    · cases finished
    · have short : (s.arena n).credit.acquireMany (min rest.length maxPayload) = none :=
        if_neg fun enough => Nat.not_le_of_lt lacking enough.2
      simp only [Session.sendStep, gate, short]
      rfl
  | queue => simp [Sending.isOver, Session.Starves] at waits
  | sent | broken => rfl

/-- Nor can a tunnel that waits take one of its own. -/
theorem Tunnel.Waits.stuck (waits : t.Waits s) {act : TunnelAct} (own : act.isOwn = true) :
    s.tunnelStep t act = none := by
  cases act with
  | begin | read | readEnds | writeFails => cases own
  | proceed =>
    rcases waits.phase with phase | phase | phase <;> simp [Session.tunnelStep, Session.callerStep, phase]
  | uplinkSend =>
    cases uplink : t.uplink with
    | sending stage =>
      obtain ⟨n, served, starves⟩ := waits.uplink stage uplink
      simp [Session.tunnelStep, Session.uplinkStep, uplink, served, send_stuck (.inr starves)]
    | _ => simp [Session.tunnelStep, Session.uplinkStep, uplink]
  | leave =>
    rcases waits.phase with phase | running | phase
    · simp [Session.tunnelStep, phase]
    · obtain ⟨-, going, waiting, n, served, -⟩ := waits.running running
      simp [Session.tunnelStep, running, served, going, waiting, Downlink.isEnded]
    · simp [Session.tunnelStep, phase]
  | recv | recvEnds | write | wrote | grant | shutdownDone =>
    rcases waits.phase with phase | running | phase
    · simp [Session.tunnelStep, phase]
    · obtain ⟨-, -, waiting, n, served, empty, found⟩ := waits.running running
      simp [Session.tunnelStep, running, served, Session.downlinkStep, waiting, Session.take, Channel.recv, empty,
        Session.Feeds, found]
    · simp [Session.tunnelStep, phase]

/-! The whole link. -/

/-- Nothing is in the cable. -/
structure Cable.Clear (c : Cable) : Prop where
  staged : c.staged = []
  flight : c.flight = []
  buffered : c.buffered = []

instance (c : Cable) : Decidable c.Clear :=
  decidable_of_iff (c.staged = [] ∧ c.flight = [] ∧ c.buffered = [])
    ⟨fun ⟨staged, flight, buffered⟩ => ⟨staged, flight, buffered⟩,
      fun clear => ⟨clear.staged, clear.flight, clear.buffered⟩⟩

theorem Cable.Clear.next (clear : c.Clear) (transport : Transport) : c.next transport = none := by
  rw [Cable.next, clear.buffered]
  rfl

theorem Cable.Clear.write (clear : c.Clear) (count : Nat) : c.write count = none := by
  rw [Cable.write, clear.staged]
  exact if_neg fun some => Nat.not_lt_of_le some.2 some.1

theorem Cable.Clear.arrive (clear : c.Clear) (count : Nat) : c.arrive count = none := by
  rw [Cable.arrive, clear.flight]
  exact if_neg fun some => Nat.not_lt_of_le some.2 some.1

/-- Behind a reader that has heard everything the cable is empty. -/
theorem Cable.Conveys.clear (conveys : c.Conveys transport s u) (heard : u.log = s.out.accepted)
    : c.Clear := by
  have nothing : s.unread u = [] := by
    rw [Session.unread, heard, List.drop_eq_nil_iff, List.length_take]
    exact Nat.min_le_right _ _
  have bytes := conveys.bytes
  rw [nothing, records] at bytes
  obtain ⟨⟨buffered, flight⟩, staged⟩ : (c.buffered = [] ∧ c.flight = []) ∧ c.staged = [] := by
    simpa [and_assoc] using bytes
  exact ⟨staged, flight, buffered⟩

/-- A link at rest: everything queued has been heard and done, every tunnel waits for
its client or for the far end, and every send of the far end is over or waits for
credit. -/
structure LinkPair.Settled (l : LinkPair) : Prop where
  up : l.up.Clear
  down : l.down.Clear
  near : l.near.session.Rested
  far : l.far.session.Rested
  toFar : l.far.session.log = l.near.session.out.accepted
  toNear : l.near.session.log = l.far.session.out.accepted
  tunnels : ∀ name, (l.near.tunnels name).Waits l.near.session
  sends : ∀ m < l.far.session.created,
    (l.far.sending m).isOver = true ∨ l.far.session.Starves m (l.far.sending m)

variable {up down : Transport} {l : LinkPair}

theorem LinkPair.Settled.rests (settled : l.Settled) (up down : Transport) :
    Rests (LinkPair.step up down) (fun act => act.isOwn = true) l := by
  intro act own
  cases act with
  | near act =>
    cases act with
    | link act => simp [LinkPair.step, settled.near.stuck settled.up.staged]
    | tunnel name act =>
      have stuck := (settled.tunnels name).stuck (show act.isOwn = true from own)
      simp [LinkPair.step, Proxy.step, stuck]
  | far act =>
    cases act with
    | link act => simp [LinkPair.step, settled.far.stuck settled.down.staged]
    | proceed m =>
      simp only [LinkPair.step, Acceptor.step, Option.map_eq_none_iff]
      split
      · rename_i known
        simp [send_stuck (settled.sends m known)]
      · rfl
    | _ => cases own
  | nearWrites count => simp [LinkPair.step, settled.up.write]
  | farWrites count => simp [LinkPair.step, settled.down.write]
  | nearReads count => simp [LinkPair.step, settled.down.arrive]
  | farReads count => simp [LinkPair.step, settled.up.arrive]
  | nearHears => simp [LinkPair.step, Session.atCable, settled.down.next]
  | farHears => simp [LinkPair.step, Session.atCable, settled.up.next]

/-- An end whose writer is blocked and whose reader waits for a place behind all that the
writer has not taken. -/
structure Session.Jammed (s : Session) (c : Cable) (room : Nat) : Prop where
  blocked : s.Blocked c room
  replies : s.reader.replies ≠ none
  full : outboxFrames ≤ s.out.len

/-- The two ends wait for each other: neither reader reads before the other does. -/
structure LinkPair.Locked (l : LinkPair) (room : Nat) : Prop where
  near : l.near.session.Jammed l.up room
  far : l.far.session.Jammed l.down room

/-- An end jams when the other one cannot write to it. -/
private theorem jams {room : Nat} (some : 0 < room) (live : Live s) (tasks : ∀ act, s.onCable transport c act = none)
    (writes : s.Flushes c → ∀ count, c.flight.length + count ≤ room → c.write count = none)
    {other : Cable} (full : room ≤ other.flight.length) (drains : s.reader = .idle → other.flight = []) :
    s.Jammed c room := by
  obtain idle | ⟨replies, crowded⟩ := reader_rests live tasks
  · rw [drains idle] at full
    exact absurd (Nat.lt_of_lt_of_le some full) (Nat.lt_irrefl 0)
  · obtain ⟨-, rested⟩ | blocked := session_rests live tasks writes
    · rw [rested.room] at crowded
      exact absurd crowded (by decide)
    · exact ⟨blocked, replies, crowded⟩

theorem LinkPair.settles {room : Nat} (some : 0 < room) (beneath : l.Beneath up down l.frames) (ready : l.near.Ready)
    (upOpens : ∀ nonce plain, up.readMessage nonce (up.writeMessage nonce plain) = .ok plain)
    (downOpens : ∀ nonce plain, down.readMessage nonce (down.writeMessage nonce plain) = .ok plain)
    (rests : Rests (LinkPair.stepIn room up down) (fun act => act.isOwn = true) l) :
    l.Settled ∨ l.Locked room := by
  have joined := beneath.joined
  have nearLive : Live l.near.session := joined.nearLive
  have farLive : Live l.far.session := joined.farLive
  have carriesUp : Carries l.far.session l.near.session := joined.toFar
  have carriesDown : Carries l.near.session l.far.session := joined.toNear
  have can (act : LinkAct) (own : act.isOwn = true) (fits : l.HasRoom room act) : l.step up down act = none := by
    simpa [LinkPair.stepIn, fits] using rests act own
  -- the tasks and the writers
  have nearTasks (act : Session.Act) : l.near.session.onCable up l.up act = none := by
    simpa [LinkPair.step] using can (.near (.link act)) rfl trivial
  have farTasks (act : Session.Act) : l.far.session.onCable down l.down act = none := by
    simpa [LinkPair.step] using can (.far (.link act)) rfl trivial
  have nearWrites (flushes : l.near.session.Flushes l.up) (count : Nat)
      (fits : l.up.flight.length + count ≤ room) : l.up.write count = none := by
    simpa [LinkPair.step, flushes] using can (.nearWrites count) rfl fits
  have farWrites (flushes : l.far.session.Flushes l.down) (count : Nat)
      (fits : l.down.flight.length + count ≤ room) : l.down.write count = none := by
    simpa [LinkPair.step, flushes] using can (.farWrites count) rfl fits
  -- the readers
  have conveysUp : l.up.Conveys up l.near.session l.far.session := beneath.up
  have conveysDown : l.down.Conveys down l.far.session l.near.session := beneath.down
  have farDrains (idle : l.far.session.reader = .idle) :=
    reader_drains nearLive conveysUp upOpens idle
      (fun waits count => by simpa [LinkPair.step, idle, waits] using can (.farReads count) rfl trivial)
      (by simpa [LinkPair.step] using can .farHears rfl trivial)
  have nearDrains (idle : l.near.session.reader = .idle) :=
    reader_drains farLive conveysDown downOpens idle
      (fun waits count => by simpa [LinkPair.step, idle, waits] using can (.nearReads count) rfl trivial)
      (by simpa [LinkPair.step] using can .nearHears rfl trivial)
  have farJams (full : room ≤ l.up.flight.length) : l.far.session.Jammed l.down room :=
    jams some farLive farTasks farWrites full fun idle => (farDrains idle).1
  have nearJams (full : room ≤ l.down.flight.length) : l.near.session.Jammed l.up room :=
    jams some nearLive nearTasks nearWrites full fun idle => (nearDrains idle).1
  obtain ⟨nearFlushed, near⟩ | blocked := session_rests nearLive nearTasks nearWrites
  · obtain ⟨farFlushed, far⟩ | blocked := session_rests farLive farTasks farWrites
    · have toFar := hears_all carriesUp ((farDrains far.idle).2 nearFlushed) near
      have toNear := hears_all carriesDown ((nearDrains near.idle).2 farFlushed) far
      refine .inl ⟨beneath.up.clear toFar, beneath.down.clear toNear, near, far, toFar, toNear, fun name => ?_,
        fun m known => ?_⟩
      · refine tunnel_rests near.prompt near.free (joined.sound.fits name) (ready.poised name)
          (ready.affords name) fun act own => ?_
        simpa [LinkPair.step, Proxy.step] using can (.near (.tunnel name act)) own trivial
      · refine send_rests far.prompt ?_
        simpa [LinkPair.step, Acceptor.step, known] using can (.far (.proceed m)) rfl trivial
    · have near := nearJams blocked.full
      exact .inr ⟨near, farJams near.blocked.full⟩
  · have far := farJams blocked.full
    exact .inr ⟨nearJams far.blocked.full, far⟩

/-! Such a lock is for good. -/

/-- Nothing about the link has changed for a session. -/
structure Session.Still (s s' : Session) : Prop where
  reader : s'.reader = s.reader
  out : s'.out = s.out
  fed : s'.fed = s.fed
  log : s'.log = s.log

theorem Session.Still.trans {s u s' : Session} (first : s.Still u) (second : u.Still s') : s.Still s' :=
  ⟨second.reader.trans first.reader, second.out.trans first.out, second.fed.trans first.fed,
    second.log.trans first.log⟩

theorem Session.Jammed.still {room : Nat} (jammed : s.Jammed c room) (still : s.Still s') : s'.Jammed c room := by
  obtain ⟨⟨flushes, staged, full⟩, replies, crowded⟩ := jammed
  refine ⟨⟨?_, staged, full⟩, ?_, ?_⟩
  · rw [Session.Flushes, still.fed, still.out]
    exact flushes
  · rw [still.reader]
    exact replies
  · rw [still.out]
    exact crowded

/-- The outbox takes nothing more. -/
def Session.Stopped (s : Session) : Prop := s.out.isOpen = true → outboxFrames ≤ s.out.len

theorem Session.Stopped.enqueue (stopped : s.Stopped) (frame : Frame) : s.enqueue frame = none :=
  if_neg fun ⟨opened, room⟩ => Nat.not_le_of_lt room (stopped opened)

theorem SendMove.still {stage next : Sending} (move : SendMove s n stage s' next) (stopped : s.Stopped) :
    s.Still s' := by
  cases move with
  | queues chunk rest did =>
    rw [stopped.enqueue] at did
    cases did
  | _ => exact ⟨rfl, rfl, rfl, rfl⟩

theorem still_hangUp (s : Session) (stream : Nat) : s.Still (s.hangUp stream) := ⟨rfl, rfl, rfl, rfl⟩

theorem still_remove (s : Session) (id : UInt32) : s.Still (s.remove id) :=
  ⟨(quiet_remove s id).reader, remove_out s id, remove_fed s id, (quiet_remove s id).log⟩

theorem still_removeAndClose (s : Session) (id : UInt32) : s.Still (s.removeAndClose id) :=
  ⟨(quiet_removeAndClose s id).reader, by simp, removeAndClose_fed s id, (quiet_removeAndClose s id).log⟩

theorem still_take {stream : Nat} {chunk : Bytes} (took : s.take stream = some (chunk, s')) : s.Still s' := by
  obtain ⟨⟨first, inbox⟩, -, same⟩ := Option.map_eq_some_iff.mp took
  cases same
  exact ⟨rfl, rfl, rfl, rfl⟩

/-- With such an outbox a tunnel changes nothing about the link. -/
theorem Move.still {act : TunnelAct} (move : Move s t act s' t') (stopped : s.Stopped) : s.Still s' := by
  have never {frame : Frame} {s' : Session} (did : s.enqueue frame = some s') : False := by
    rw [stopped.enqueue] at did
    cases did
  cases move with
  | reserve _ did =>
    obtain ⟨-, same⟩ := Option.ite_none_left_eq_some.mp did
    cases same
    exact ⟨rfl, rfl, rfl, rfl⟩
  | announce _ _ did | closed _ _ _ did | grant _ _ _ _ did => exact (never did).elim
  | giveUp stream => exact (still_remove s _).trans (still_hangUp _ stream)
  | leave stream => exact still_remove s _
  | greeting stage next stream _ _ did | uplinkSend stage next stream _ _ did =>
    exact (sendStep_move did).still stopped
  | rejected stage stream _ _ did => exact ((sendStep_move did).still stopped).trans (still_hangUp _ stream)
  | recv stream chunk _ _ _ did => exact still_take did
  | _ => exact ⟨rfl, rfl, rfl, rfl⟩

theorem AcceptorMove.still {a b : Acceptor} {act : AcceptorAct} (move : AcceptorMove a act b)
    (stopped : a.session.Stopped) : a.session.Still b.session := by
  have closes {s s' : Session} {n : Nat} {sent : Bool} (stopped : s.Stopped)
      (did : s.closeStream n sent = some s') : s.Still s' := by
    have removed := still_removeAndClose s (s.arena n).id
    obtain ⟨-, queued⟩ | ⟨-, rfl⟩ := closeStream_cases did
    · rw [Session.Stopped.enqueue (by rw [Session.Stopped, removed.out]; exact stopped)] at queued
      cases queued
    · exact removed
  cases move with
  | proceed stream next _ did => exact did.still stopped
  | recv stream chunk _ did => exact still_take did
  | grants stream bytes _ did =>
    rw [stopped.enqueue] at did
    cases did
  | shutdown stream sent _ did => exact closes stopped did
  | drop stream sent _ did => exact (closes stopped did).trans (still_hangUp _ stream)
  | _ => exact ⟨rfl, rfl, rfl, rfl⟩

theorem Session.Jammed.stopped {room : Nat} (jammed : s.Jammed c room) : s.Stopped := fun _ => jammed.full

/-- Nor do the tasks of a jammed end. -/
theorem Session.Jammed.onCable {room : Nat} {c' : Cable} {act : Session.Act} (jammed : s.Jammed c room) (live : Live s)
    (conveys : c.Conveys transport s u) (did : s.onCable transport c act = some (c', s')) :
    c' = c ∧ s.Still s' := by
  obtain ⟨tasks, stepped, -⟩ := Session.onCable_step live conveys did
  have busy {r : Reader} (reading : s.reader = r) (none : r.replies = none) : False :=
    jammed.replies (reading ▸ none)
  cases act with
  | takeBatch count =>
    rw [Session.onCable, if_neg jammed.blocked.staged] at did
    cases did
  | feed =>
    obtain ⟨frame, -, did⟩ := Option.bind_eq_some_iff.mp did
    obtain ⟨⟨cable, took⟩, fed, -⟩ := Option.bind_eq_some_iff.mp did
    obtain ⟨below, -⟩ := Option.ite_none_right_eq_some.mp fed
    cases step_move stepped with
    | feed some =>
      obtain same | filled := jammed.blocked.flushes
      · exact absurd same (Nat.ne_of_lt some)
      · exact absurd below (Nat.not_lt_of_le filled)
  | advance =>
    cases step_move stepped with
    | admits _ reading | admitsNobody _ reading | delivers _ _ _ reading | drops _ _ _ reading
    | overflows _ _ _ reading | evicts _ _ reading | dies reading | ends reading =>
      exact (busy reading rfl).elim
  | reply =>
    cases step_move stepped with
    | replies frame _ queued =>
      rw [jammed.stopped.enqueue] at queued
      cases queued
    | replyFails _ _ dead =>
      rw [live.opened] at dead
      cases dead
  | release =>
    obtain ⟨session, -, same⟩ := Option.map_eq_some_iff.mp did
    cases same
    cases step_move stepped with
    | release => exact ⟨rfl, rfl, rfl, rfl, rfl⟩
  | _ => cases tasks

/-- Nothing on the link has moved. -/
structure LinkPair.Frozen (l next : LinkPair) : Prop where
  up : next.up = l.up
  down : next.down = l.down
  near : l.near.session.Still next.near.session
  far : l.far.session.Still next.far.session

theorem LinkPair.Locked.frozen {room : Nat} {next : LinkPair} (locked : l.Locked room) (frozen : l.Frozen next) :
    next.Locked room := by
  refine ⟨?_, ?_⟩
  · rw [frozen.up]
    exact locked.near.still frozen.near
  · rw [frozen.down]
    exact locked.far.still frozen.far

theorem LinkPair.Locked.step {room : Nat} {act : LinkAct} {next : LinkPair} (locked : l.Locked room)
    (beneath : l.Beneath up down l.frames) (stepped : l.stepIn room up down act = some next) : l.Frozen next := by
  obtain ⟨fits, stepped⟩ := Option.ite_none_right_eq_some.mp stepped
  have joined := beneath.joined
  have nearLive : Live l.near.session := joined.nearLive
  have farLive : Live l.far.session := joined.farLive
  have still {s : Session} : s.Still s := ⟨rfl, rfl, rfl, rfl⟩
  have nearBusy : l.near.session.reader ≠ .idle := fun idle => locked.near.replies (by rw [idle]; rfl)
  have farBusy : l.far.session.reader ≠ .idle := fun idle => locked.far.replies (by rw [idle]; rfl)
  cases act with
  | near act =>
    cases act with
    | link act =>
      obtain ⟨⟨cable, session⟩, did, rfl⟩ := Option.map_eq_some_iff.mp stepped
      obtain ⟨same, kept⟩ := locked.near.onCable nearLive beneath.up did
      exact ⟨same, rfl, kept, still⟩
    | tunnel name act =>
      obtain ⟨near, moved, rfl⟩ := Option.map_eq_some_iff.mp stepped
      obtain ⟨⟨session, tunnel⟩, did, rfl⟩ := Option.map_eq_some_iff.mp moved
      exact ⟨rfl, rfl, (tunnelStep_move did).still locked.near.stopped, still⟩
  | far act =>
    have user (plain : ∀ link, act ≠ .link link) (did : (l.far.step act).map (fun far => { l with far }) = some next) :
        l.Frozen next := by
      obtain ⟨far, moved, rfl⟩ := Option.map_eq_some_iff.mp did
      exact ⟨rfl, rfl, still, (acceptorStep_move plain moved).still locked.far.stopped⟩
    cases act with
    | link act =>
      obtain ⟨⟨cable, session⟩, did, rfl⟩ := Option.map_eq_some_iff.mp stepped
      obtain ⟨same, kept⟩ := locked.far.onCable farLive beneath.down did
      exact ⟨rfl, same, still, kept⟩
    | _ => exact user (by simp) stepped
  | nearWrites count =>
    obtain ⟨-, did⟩ := Option.ite_none_right_eq_some.mp stepped
    obtain ⟨cable, wrote, rfl⟩ := Option.map_eq_some_iff.mp did
    obtain ⟨⟨some, -⟩, -⟩ := Option.ite_none_right_eq_some.mp wrote
    have full := locked.near.blocked.full
    simp only [LinkPair.HasRoom] at fits
    omega
  | farWrites count =>
    obtain ⟨-, did⟩ := Option.ite_none_right_eq_some.mp stepped
    obtain ⟨cable, wrote, rfl⟩ := Option.map_eq_some_iff.mp did
    obtain ⟨⟨some, -⟩, -⟩ := Option.ite_none_right_eq_some.mp wrote
    have full := locked.far.blocked.full
    simp only [LinkPair.HasRoom] at fits
    omega
  | nearReads count =>
    obtain ⟨⟨idle, -⟩, -⟩ := Option.ite_none_right_eq_some.mp stepped
    exact absurd idle nearBusy
  | farReads count =>
    obtain ⟨⟨idle, -⟩, -⟩ := Option.ite_none_right_eq_some.mp stepped
    exact absurd idle farBusy
  | nearHears =>
    obtain ⟨⟨cable, session⟩, did, rfl⟩ := Option.map_eq_some_iff.mp stepped
    exact absurd (Option.ite_none_right_eq_some.mp did).1 nearBusy
  | farHears =>
    obtain ⟨⟨cable, session⟩, did, rfl⟩ := Option.map_eq_some_iff.mp stepped
    exact absurd (Option.ite_none_right_eq_some.mp did).1 farBusy

/-- Whatever anybody does, the two ends do not come loose. -/
theorem LinkPair.Locked.run {room : Nat} {more : List LinkAct} {q : LinkPair} (locked : l.Locked room)
    (beneath : l.Beneath up down l.frames)
    (upOpens : ∀ nonce plain, up.readMessage nonce (up.writeMessage nonce plain) = .ok plain)
    (downOpens : ∀ nonce plain, down.readMessage nonce (down.writeMessage nonce plain) = .ok plain)
    (ran : run (LinkPair.stepIn room up down) l more = some q) : l.Frozen q := by
  have kept : q.Beneath up down q.frames ∧ l.Frozen q := by
    refine run_preserves (fun m => LinkPair.Beneath up down m m.frames ∧ l.Frozen m) ?_
      ⟨beneath, rfl, rfl, ⟨rfl, rfl, rfl, rfl⟩, ⟨rfl, rfl, rfl, rfl⟩⟩ ran
    rintro m act next ⟨beneath, frozen⟩ stepped
    have after := (locked.frozen frozen).step beneath stepped
    refine ⟨?_, after.up.trans frozen.up, after.down.trans frozen.down, frozen.near.trans after.near,
      frozen.far.trans after.far⟩
    exact (beneath.reaches upOpens downOpens (LinkPair.stepIn_less room up down m act next stepped)
      (fun _ => True) trivial fun _ _ _ _ _ => trivial).1
  exact kept.2

end DshProxy.Mux

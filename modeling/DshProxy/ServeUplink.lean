import DshProxy.MuxHistory
import DshProxy.NoiseCodec

/-! The way up: what a tunnel has queued as DATA, as a function of the bytes its
client has sent it, and what of that is on the link. -/
namespace DshProxy.Mux
open Sync Wire Transitions

variable {s s' : Session} {t t' : Tunnel} {p q : Proxy} {n : Nat} {text sent : Bytes}

/-- How what is queued stands to what the uplink was to send: all of it, but for
what the send in progress still holds; once the uplink has ended, a front part. -/
def Uplink.Sends (uplink : Uplink) (text queued : Bytes) : Prop :=
  match uplink with
  | .reading => queued = text
  | .sending stage => queued ++ stage.rest = text
  | .off | .ended => queued <+: text

/-- How what a tunnel has queued stands to its preamble and the bytes it has read. -/
def Tunnel.Sends (t : Tunnel) (queued : Bytes) : Prop :=
  match t.phase with
  | .idle | .opening _ => queued = [] ∧ t.reads = []
  | .greeting stage => queued ++ stage.rest = t.head ∧ t.reads = []
  | .running | .closing | .returned => t.uplink.Sends (t.head ++ t.reads) queued

theorem Uplink.Sends.front {uplink : Uplink} (sends : uplink.Sends text sent) : sent <+: text := by
  cases uplink with
  | off => exact sends
  | reading => exact sends ▸ List.prefix_rfl
  | sending stage =>
    rw [← show _ = text from sends]
    exact List.prefix_append _ _
  | ended => exact sends

theorem Tunnel.Sends.front (sends : t.Sends sent) : sent <+: t.head ++ t.reads := by
  unfold Tunnel.Sends at sends
  split at sends
  · rw [sends.1]
    exact List.nil_prefix
  · rw [sends.1]
    exact List.nil_prefix
  · rw [← sends.1, List.append_assoc]
    exact List.prefix_append _ _
  · exact Uplink.Sends.front sends
  · exact Uplink.Sends.front sends
  · exact Uplink.Sends.front sends

@[simp] theorem Sending.rest_next (data : Bytes) : (Sending.next data).rest = data := by
  unfold Sending.next
  split
  · rename_i empty
    rw [empty]
    rfl
  · rfl

/-- The DATA bytes queued for a stream. -/
def Session.queued (s : Session) (n : Nat) : Bytes :=
  (dataOn (s.arena n).id s.out.accepted).flatten

/-- A frame of another kind or of another stream is no DATA of this one. -/
theorem dataOn_aside {id : UInt32} {frames : List Frame} {frame : Frame}
    (aside : frame.id ≠ id ∨ frame.kind ≠ .data) : dataOn id (frames ++ [frame]) = dataOn id frames := by
  rw [dataOn_append, dataOn_singleton, if_neg, List.append_nil]
  rintro ⟨same, kind⟩
  exact aside.elim (fun other => other same) fun other => other kind

private theorem queued_eq (arena : (s'.arena n).id = (s.arena n).id)
    (out : s'.out.accepted = s.out.accepted) : s'.queued n = s.queued n := by
  unfold Session.queued
  rw [arena, out]

private theorem queued_adds {sort : Frame → Prop} (arena : (s'.arena n).id = (s.arena n).id)
    (adds : Adds sort s s') (aside : ∀ frame, sort frame → frame.id ≠ (s.arena n).id ∨ frame.kind ≠ .data) :
    s'.queued n = s.queued n := by
  obtain same | ⟨frame, holds, more⟩ := adds
  · exact queued_eq arena same
  · unfold Session.queued
    rw [arena, more, dataOn_aside (aside frame holds)]

/-- A piece of a send moves bytes from what it holds to what is queued. -/
theorem SendMove.queued (move : SendMove s n stage s' next) (kept : next ≠ .broken) :
    s'.queued n ++ next.rest = s.queued n ++ stage.rest := by
  cases move with
  | spends rest =>
    have same : (s.modify n fun st => { st with credit :=
        { (s.arena n).credit with
          permits := (s.arena n).credit.permits - min rest.length maxPayload } }).queued n = s.queued n :=
      queued_eq (by simp [Session.modify]) rfl
    rw [same]
    simp [Sending.rest]
  | shut => exact absurd rfl kept
  | queues chunk rest did =>
    obtain ⟨rfl, -, -⟩ := enqueue_eq did
    unfold Session.queued
    dsimp only
    rw [Channel.push_accepted, dataOn_append, dataOn_singleton, Sending.rest_next]
    simp [Sending.rest]
  | dead => exact absurd rfl kept

theorem SendMove.broken (move : SendMove s n stage s' .broken) : s' = s := by
  generalize ending : Sending.broken = next at move
  cases move with
  | shut => rfl
  | dead => rfl
  | spends => cases ending
  | queues chunk rest =>
    unfold Sending.next at ending
    split at ending <;> cases ending

/-- The uplink runs only behind the preamble. -/
private theorem sends_going (fits : t.Fits) (going : t.uplink ≠ .off) (sends : t.Sends sent) :
    t.uplink.Sends (t.head ++ t.reads) sent := by
  have early := fits.early
  unfold Tunnel.Sends at sends
  cases phase : t.phase <;> rw [phase] at early sends <;> first
    | exact sends
    | exact absurd early.1 going

private theorem sends_uplink (fits : t.Fits) (going : t.uplink ≠ .off) {uplink : Uplink} {reads : Bytes}
    (goes : uplink.Sends (t.head ++ reads) sent) :
    ({ t with uplink, reads } : Tunnel).Sends sent := by
  have early := fits.early
  unfold Tunnel.Sends
  dsimp only
  cases phase : t.phase <;> rw [phase] at early <;> first
    | exact goes
    | exact absurd early.1 going

private theorem sends_downlink (running : t.phase = .running) (sends : t.Sends sent)
    {downlink : Downlink} {pending granted : Nat} {writes : Bytes} :
    ({ t with downlink, pending, writes, granted } : Tunnel).Sends sent := by
  unfold Tunnel.Sends at sends ⊢
  rw [running] at sends
  dsimp only
  rw [running]
  exact sends

@[simp] theorem queued_hangUp (s : Session) (stream n : Nat) :
    (s.hangUp stream).queued n = s.queued n := by
  exact queued_eq (modify_kept s Stream.id rfl n) rfl

theorem queued_remove (s : Session) (id : UInt32) : (s.remove id).queued n = s.queued n :=
  queued_eq (by rw [arena_remove]) (by simp)

theorem queued_take {stream : Nat} {chunk : Bytes} (took : s.take stream = some (chunk, s')) :
    s'.queued n = s.queued n := by
  apply queued_eq
  · exact (alike_take took).id n
  · rw [take_out took]

private theorem queued_enqueue {frame : Frame} (did : s.enqueue frame = some s')
    (aside : frame.kind ≠ .data) : s'.queued n = s.queued n := by
  refine queued_adds (by rw [enqueue_arena did]) (.one rfl (enqueue_adds did)) ?_
  rintro _ rfl
  exact .inr aside

/-- A tunnel's own step: what it queues is what it was to send. -/
theorem Move.sends (move : Move s t act s' t') (fits : t.Fits) (own : t.stream = some n)
    (sends : t.Sends (s.queued n)) : t'.Sends (s'.queued n) := by
  have place := fits.place
  have early := fits.early
  have front := sends.front
  have mine {stream : Nat} (same : t.stream = some stream) : stream = n :=
    Option.some.inj (same.symm.trans own)
  have none (before : t.stream = none) : False := by
    rw [before] at own
    cases own
  have opens {stage : Opening} (phase : t.phase = .opening stage) : s.queued n = [] ∧ t.reads = [] := by
    unfold Tunnel.Sends at sends
    rwa [phase] at sends
  have greets {stage : Sending} (phase : t.phase = .greeting stage) :
      s.queued n ++ stage.rest = t.head ∧ t.reads = [] := by
    unfold Tunnel.Sends at sends
    rwa [phase] at sends
  have closes (phase : t.phase = .closing) : t.uplink.Sends (t.head ++ t.reads) (s.queued n) := by
    unfold Tunnel.Sends at sends
    rwa [phase] at sends
  cases move with
  | begin head idle =>
    rw [idle] at place
    exact (none place).elim
  | reserve phase =>
    rw [phase] at place
    exact (none place).elim
  | refused phase =>
    rw [phase] at place
    exact (none place).elim
  | allocate phase =>
    rw [phase] at place
    exact (none place).elim
  | insert id phase =>
    rw [phase] at place
    exact (none place).elim
  | announce stream phase did =>
    obtain ⟨empty, unread⟩ := opens phase
    refine ⟨?_, unread⟩
    rw [queued_enqueue did (by simp [Frame.control]), empty, Sending.rest_next]
    rfl
  | announceFails stream phase => exact opens phase
  | giveUp stream phase =>
    rw [phase] at early
    show t.uplink.Sends _ _
    rw [early.1, queued_hangUp, queued_remove]
    exact front
  | greeting stage next stream phase owned did kept =>
    obtain rfl := mine owned
    obtain ⟨sent, unread⟩ := greets phase
    have moved := ((sendStep_move did).queued kept).trans sent
    cases next with
    | acquire rest => exact ⟨moved, unread⟩
    | queue chunk rest => exact ⟨moved, unread⟩
    | sent =>
      show s'.queued stream = t.head ++ t.reads
      rw [unread, List.append_nil, ← moved]
      exact (List.append_nil _).symm
    | broken => exact absurd rfl kept
  | rejected stage stream phase owned did =>
    obtain rfl := mine owned
    obtain rfl := (sendStep_move did).broken
    rw [phase] at early
    show t.uplink.Sends _ _
    rw [early.1, queued_hangUp]
    exact front
  | closed stream phase owned did =>
    show t.uplink.Sends _ _
    rw [queued_hangUp, queued_enqueue did (by simp [Frame.control])]
    exact closes phase
  | closeFails stream phase =>
    show t.uplink.Sends _ _
    rw [queued_hangUp]
    exact closes phase
  | read bytes reading =>
    have going : t.uplink ≠ .off := by simp [reading]
    have all := sends_going fits going sends
    rw [reading] at all
    refine sends_uplink fits going ?_
    show s.queued n ++ (Sending.next bytes).rest = _
    rw [Sending.rest_next, show s.queued n = _ from all, List.append_assoc]
  | readEnds reading => exact sends_uplink fits (by simp [reading]) front
  | uplinkSend stage next stream sending owned did =>
    obtain rfl := mine owned
    have going : t.uplink ≠ .off := by simp [sending]
    have some := sends_going fits going sends
    rw [sending] at some
    refine sends_uplink fits going ?_
    by_cases kept : next = .broken
    · subst kept
      obtain rfl := (sendStep_move did).broken
      exact front
    · have moved := ((sendStep_move did).queued kept).trans some
      cases next with
      | acquire rest => exact moved
      | queue chunk rest => exact moved
      | sent => exact (List.append_nil _).symm.trans moved
      | broken => exact absurd rfl kept
  | recv stream chunk running _ _ did =>
    rw [queued_take did]
    exact sends_downlink running sends
  | recvEnds stream running => exact sends_downlink running sends
  | write stream count rest size running => exact sends_downlink running sends
  | writeFails stream rest size running => exact sends_downlink running sends
  | wrote stream size running => exact sends_downlink running sends
  | grant stream running _ _ did =>
    rw [queued_enqueue did (by simp [Frame.grant])]
    exact sends_downlink running sends
  | grantFails stream running => exact sends_downlink running sends
  | shutdownDone unwritten running => exact sends_downlink running sends
  | leave stream running =>
    unfold Tunnel.Sends at sends
    rw [running] at sends
    show t.uplink.Sends _ _
    rw [queued_remove]
    exact sends

/-- The chunks a tunnel has in hand fit a frame. -/
def Tunnel.Small (t : Tunnel) : Prop :=
  ∀ stage, t.phase.sends = some stage ∨ t.uplink.sends = some stage → stage.Small

private theorem small_phase (small : t.Small) {phase : Phase} (none : phase.sends = none)
    {stream : Option Nat} {head : Bytes} : ({ t with phase, stream, head } : Tunnel).Small := by
  rintro stage (same | same)
  · rw [show phase.sends = _ from same] at none
    cases none
  · exact small stage (.inr same)

/-- A piece of a send queues a frame that can be read back. -/
private theorem SendMove.proper {stage next : Sending} (move : SendMove s n stage s' next)
    (small : stage.Small) : Adds Frame.Proper s s' ∧ next.Small := by
  cases move with
  | spends rest => exact ⟨.nothing rfl, by simp [Sending.Small]⟩
  | shut => exact ⟨.nothing rfl, trivial⟩
  | queues chunk rest did =>
    have proper : (⟨(s.arena n).id, .data, chunk⟩ : Frame).Proper := ⟨by simp [Frame.Named], small⟩
    exact ⟨.one proper (enqueue_adds did), Sending.next_small rest⟩
  | dead => exact ⟨.nothing rfl, trivial⟩

/-- So does a tunnel. -/
theorem Move.proper (move : Move s t act s' t') (small : t.Small) :
    Adds Frame.Proper s s' ∧ t'.Small := by
  have control {id : UInt32} {kind : Kind} {s' : Session} (named : ∀ code, kind ≠ .other code)
      (did : s.enqueue (.control id kind) = some s') : Adds Frame.Proper s s' :=
    .one (Frame.control_proper id named) (enqueue_adds did)
  cases move with
  | begin head => exact ⟨.nothing rfl, small_phase small rfl⟩
  | reserve _ did =>
    obtain ⟨-, same⟩ := Option.ite_none_left_eq_some.mp did
    cases same
    exact ⟨.nothing rfl, small_phase small rfl⟩
  | refused => exact ⟨.nothing rfl, small_phase small rfl⟩
  | allocate => exact ⟨.nothing rfl, small_phase small rfl⟩
  | insert id => exact ⟨.nothing rfl, small_phase small rfl⟩
  | announce stream _ did =>
    refine ⟨control (by simp) did, ?_⟩
    rintro stage (same | same)
    · cases same
      exact Sending.next_small _
    · exact small stage (.inr same)
  | announceFails stream => exact ⟨.nothing rfl, small_phase small rfl⟩
  | giveUp stream => exact ⟨.nothing (by simp [Session.hangUp, Session.modify]), small_phase small rfl⟩
  | greeting stage next stream phase _ did =>
    obtain ⟨adds, fits⟩ := (sendStep_move did).proper (small stage (.inl (by rw [phase]; rfl)))
    refine ⟨adds, ?_⟩
    rintro other (same | same)
    · cases next <;> cases same <;> exact fits
    · cases next <;> first
        | exact small other (.inr same)
        | cases same
  | rejected stage stream phase _ did =>
    obtain ⟨adds, -⟩ := (sendStep_move did).proper (small stage (.inl (by rw [phase]; rfl)))
    exact ⟨adds, small_phase small rfl⟩
  | closed stream _ _ did =>
    have adds := control (by simp) did
    exact ⟨adds, small_phase small rfl⟩
  | closeFails stream => exact ⟨.nothing rfl, small_phase small rfl⟩
  | read bytes =>
    refine ⟨.nothing rfl, ?_⟩
    rintro stage (same | same)
    · exact small stage (.inl same)
    · cases same
      exact Sending.next_small bytes
  | readEnds =>
    refine ⟨.nothing rfl, ?_⟩
    rintro stage (same | same)
    · exact small stage (.inl same)
    · cases same
  | uplinkSend stage next stream sending _ did =>
    obtain ⟨adds, fits⟩ := (sendStep_move did).proper (small stage (.inr (by rw [sending]; rfl)))
    refine ⟨adds, ?_⟩
    rintro other (same | same)
    · exact small other (.inl same)
    · cases next <;> cases same <;> exact fits
  | recv stream chunk _ _ _ did => exact ⟨.nothing (by rw [take_out did]), small⟩
  | grant stream _ _ _ did => exact ⟨.one (Frame.grant_proper _ _) (enqueue_adds did), small⟩
  | leave stream => exact ⟨.nothing (by simp), small_phase small rfl⟩
  | _ => exact ⟨.nothing rfl, small⟩

/-- DATA is queued only under the ids of tunnels; the keepalive's has none. -/
def Proxy.Attributed (p : Proxy) : Prop :=
  ∀ frame ∈ p.session.out.accepted, frame.kind = .data →
    frame.id = 0 ∨ ∃ name k, (p.tunnels name).stream = some k ∧ (p.session.arena k).id = frame.id

/-- Every tunnel's DATA is what it was to send, and nobody else's. -/
structure Proxy.Uplinks (p : Proxy) : Prop where
  ids : p.Ids
  attributed : p.Attributed
  sends : ∀ {name n}, (p.tunnels name).stream = some n → (p.tunnels name).Sends (p.session.queued n)

/-- What `read_loop` answers is no DATA of a stream. -/
private theorem replies_aside {r : Reader} {frame : Frame} {id : UInt32}
    (replies : r.replies = some frame) (zero : id ≠ 0) : frame.id ≠ id ∨ frame.kind ≠ .data := by
  cases r with
  | echo =>
    cases replies
    exact .inl (Ne.symm zero)
  | refuse name n =>
    cases replies
    exact .inr (by simp [Frame.control])
  | _ => cases replies

theorem Proxy.Ids.nonzero (ids : p.Ids) (known : n < p.session.created) :
    (p.session.arena n).id ≠ 0 := by
  intro zero
  have positive := (ids.drawn n known).1
  rw [zero] at positive
  exact Nat.lt_irrefl _ positive

private theorem uplinks_link (uplinks : p.Uplinks) (sound : p.Sound)
    (stepped : p.session.step act = some s') (unopened : s'.Unopened) :
    ({ p with session := s' } : Proxy).Uplinks := by
  have named {k : Nat} (known : k < p.session.created) : (s'.arena k).id = (p.session.arena k).id :=
    (step_named stepped known).1
  refine ⟨uplinks.ids.link stepped unopened, fun frame member kind => ?_, fun own => ?_⟩
  · obtain old | answer := (step_adds stepped).member member
    · obtain zero | ⟨name, k, own, same⟩ := uplinks.attributed frame old kind
      · exact .inl zero
      · exact .inr ⟨name, k, own, (named (sound.known own)).trans same⟩
    · refine .inl (by_contra fun other => ?_)
      exact (replies_aside answer other).elim (fun away => away rfl) fun away => away kind
  · have known := sound.known own
    dsimp only
    rw [queued_adds (named known) (step_adds stepped) fun frame answer =>
      replies_aside answer (uplinks.ids.nonzero known)]
    exact uplinks.sends own

/-- A tunnel keeps its stream. -/
private theorem put_owns (sound : p.Sound) (move : Move p.session (p.tunnels name) act s' t')
    (own : (p.tunnels other).stream = some n) : ((p.put name s' t').tunnels other).stream = some n := by
  by_cases here : other = name
  · subst here
    rw [Proxy.put_self]
    obtain same | ⟨id, phase, -, -⟩ := move.stream
    · exact same.trans own
    · have place := (sound.fits other).place
      rw [phase, own] at place
      cases place
  · rwa [Proxy.put_other _ here]

private theorem uplinks_move (uplinks : p.Uplinks) (sound : p.Sound)
    (move : Move p.session (p.tunnels name) act s' t') (low : s'.nextId < 2 ^ 32) :
    (p.put name s' t').Uplinks := by
  have quiet := move.quiet
  have adds := move.adds (sound.fits name)
  have ids := uplinks.ids
  have named {k : Nat} (known : k < p.session.created) : (s'.arena k).id = (p.session.arena k).id :=
    quiet.id k known
  refine ⟨ids.move move low, fun frame member kind => ?_, fun {other n} own => ?_⟩
  · rw [Proxy.put_session] at member ⊢
    obtain old | ⟨k, own, same, -⟩ := adds.member member
    · obtain zero | ⟨other, k, own, same⟩ := uplinks.attributed frame old kind
      · exact .inl zero
      · exact .inr ⟨other, k, put_owns sound move own, (named (sound.known own)).trans same⟩
    · exact .inr ⟨name, k, put_owns sound move own, (named (sound.known own)).trans same.symm⟩
  · rw [Proxy.put_session]
    by_cases here : other = name
    · subst here
      rw [Proxy.put_self] at own ⊢
      obtain same | ⟨id, phase, rfl, rfl⟩ := move.stream
      · rw [same] at own
        exact move.sends (sound.fits other) own (uplinks.sends own)
      · cases own
        obtain ⟨positive, -, fresh⟩ := ids.held other id phase
        have place := (sound.fits other).place
        rw [phase] at place
        have unread := congrArg Tunnel.reads ((sound.fits other).blank place)
        refine ⟨?_, unread⟩
        unfold Session.queued
        rw [show ((p.session.insert id).arena p.session.created).id = id by simp [Session.insert]]
        have silent : dataOn id p.session.out.accepted = [] := by
          refine List.filterMap_eq_nil_iff.mpr fun frame member => if_neg ?_
          rintro ⟨same, kind⟩
          obtain zero | ⟨_, k, theirs, alike⟩ := uplinks.attributed frame member kind
          · rw [← same, zero] at positive
            exact Nat.lt_irrefl _ positive
          · exact fresh k (sound.known theirs) (alike.trans same)
        rw [show (p.session.insert id).out = p.session.out from rfl, silent]
        rfl
    · rw [Proxy.put_other _ here] at own ⊢
      have known := sound.known own
      rw [queued_adds (named known) adds]
      · exact uplinks.sends own
      · rintro frame ⟨k, theirs, about, -⟩
        refine .inl fun same => here ?_
        have shared := ids.apart k n (sound.known theirs) known (about.symm.trans same)
        exact sound.apart own (shared ▸ theirs)

/-- What holds of a link and its tunnels on every run: frames can be read back,
and, as long as ids tell streams apart, uplinks keep to their own. -/
structure Proxy.Faithful (p : Proxy) : Prop where
  sound : p.Sound
  small : ∀ name, (p.tunnels name).Small
  proper : ∀ frame ∈ p.session.out.accepted, frame.Proper
  uplinks : p.session.Unopened → p.session.nextId < 2 ^ 32 → p.Uplinks

theorem Proxy.Faithful.start (maxStreams : Nat) : (Proxy.start maxStreams).Faithful :=
  ⟨.start maxStreams, nofun, nofun, fun _ _ => ⟨.start maxStreams, nofun, nofun⟩⟩

private theorem step_unopened (stepped : s.step act = some s') (unopened : s'.Unopened) : s.Unopened := by
  intro frame member
  obtain same | ⟨plain, new, -, -, -, -, more⟩ := step_log stepped
  · exact unopened frame (same ▸ member)
  · exact unopened frame (more ▸ List.mem_append_left _ member)

theorem Proxy.Faithful.step (faithful : p.Faithful) (stepped : p.step act = some q) : q.Faithful := by
  have sound := faithful.sound.step stepped
  cases act with
  | link act =>
    obtain ⟨session, did, rfl⟩ := Option.map_eq_some_iff.mp stepped
    refine ⟨sound, faithful.small, fun frame member => ?_, fun unopened low => ?_⟩
    · obtain old | answer := (step_adds did).member member
      · exact faithful.proper frame old
      · exact Reader.replies_proper answer
    · have before := faithful.uplinks (step_unopened did unopened) (step_nextId did ▸ low)
      exact uplinks_link before faithful.sound did unopened
  | tunnel name act =>
    obtain ⟨⟨session, tunnel⟩, did, rfl⟩ := Option.map_eq_some_iff.mp stepped
    have move := tunnelStep_move did
    obtain ⟨adds, small⟩ := move.proper (faithful.small name)
    refine ⟨sound, fun other => ?_, fun frame member => ?_, fun unopened low => ?_⟩
    · by_cases here : other = name
      · rw [here, Proxy.put_self]
        exact small
      · rw [Proxy.put_other _ here]
        exact faithful.small other
    · obtain old | new := adds.member member
      · exact faithful.proper frame old
      · exact new
    · have unread : p.session.Unopened := by
        intro frame member
        exact unopened frame (by rw [Proxy.put_session, move.quiet.log]; exact member)
      have before := faithful.uplinks unread (Nat.lt_of_le_of_lt move.nextId low)
      exact uplinks_move before faithful.sound move low

/-- The bytes of every frame the writer has put on the link. -/
def Session.wire (transport : Transport) (s : Session) : Bytes :=
  (NoiseEncoder.encodeAll transport (s.out.accepted.take s.fed) ({}, [])).2

theorem dataOn_front {id : UInt32} {frames all : List Frame} (front : frames <+: all) :
    (dataOn id frames).flatten <+: (dataOn id all).flatten := by
  obtain ⟨rest, rfl⟩ := front
  rw [dataOn_append, List.flatten_append]
  exact List.prefix_append _ _

theorem Frame.Proper.readBack {frame : Frame} (proper : frame.Proper) : frame.readBack = frame := by
  have parsed := Frame.parse_encode_eq frame
  rw [Frame.parse_encode proper.named] at parsed
  exact (Option.some.inj parsed).symm

theorem Frame.Proper.sealable {frame : Frame} (proper : frame.Proper) : frame.Sealable := by
  have small := proper.small
  simp only [Frame.Sealable, maxPayload, maxNoiseMsg, tagLen, frameHead] at small ⊢
  omega

/-- Over a cipher that opens what it has sealed, the bridge reads a front part of
what was queued, however the bytes reach it. -/
theorem bridge_reads_front (proper : ∀ frame ∈ s.out.accepted, frame.Proper) {transport : Transport}
    (opens : ∀ nonce plain, transport.readMessage nonce (transport.writeMessage nonce plain) = .ok plain)
    {reads : List Bytes} (sent : reads.flatten <+: s.wire transport) :
    (LinkReader.receive transport reads).frames <+: s.out.accepted := by
  have fed {frame : Frame} (member : frame ∈ s.out.accepted.take s.fed) : frame.Proper :=
    proper frame (List.mem_of_mem_take member)
  have fit : ∀ frame ∈ s.out.accepted.take s.fed, frame.Sealable := fun _ member => (fed member).sealable
  obtain ⟨rest, whole⟩ := sent
  unfold Session.wire at whole
  rw [encodeAll_eq fit, List.nil_append] at whole
  have unseals : transport.Opens (s.out.accepted.take s.fed) := fun _ _ _ => opens _ _
  have front := (receive_intact fit unseals reads rest whole).1.front
  have same : ((s.out.accepted.take s.fed).take (LinkReader.receive transport reads).frames.length).map
      Frame.readBack = (s.out.accepted.take s.fed).take (LinkReader.receive transport reads).frames.length := by
    conv_rhs => rw [← List.map_id (List.take _ (List.take _ _))]
    exact List.map_congr_left fun frame member => (fed (List.mem_of_mem_take member)).readBack
  rw [front, same]
  exact (List.take_prefix _ _).trans (List.take_prefix _ _)

end DshProxy.Mux

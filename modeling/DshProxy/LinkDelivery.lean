import DshProxy.LinkRest
import DshProxy.MuxAgreement

/-! What has come through a link at rest: all the far end has sent on a stream that both
ends have has been shown to the client behind it, and all that client has said has been
handed to the far end, but for what the far end's user has not given credit for. -/
namespace DshProxy.Mux
open Sync Wire Transitions

variable {s s' : Session} {n : Nat} {up down : Transport} {l : LinkPair}

/-- A stream's inbox counts from its OPEN: no DATA came before. -/
def Session.FromOpen (s : Session) (id : UInt32) : Prop :=
  ∀ n < s.created, (s.arena n).id = id → dataOn id (s.log.take (s.arena n).since) = []

theorem dataOn_opening {id : UInt32} {frames : List Frame} (opens : Opens (track id frames))
    (once : (track id frames).length = 1) : dataOn id frames = [] := by
  rw [dataOn, List.filterMap_eq_nil_iff]
  intro frame member
  by_cases about : frame.id = id
  · obtain ⟨only, shape⟩ := List.length_eq_one_iff.mp once
    have among : frame ∈ track id frames := List.mem_filter.mpr ⟨member, by simpa using about⟩
    rw [shape] at among opens
    obtain rfl := List.mem_singleton.mp among
    simp [opens.1]
  · simp [about]

/-- A stream that is admitted is one since the end of the log. -/
theorem step_since {act : Session.Act} (stepped : s.step act = some s') (known : n < s'.created)
    (fresh : ¬ n < s.created) : (s'.arena n).since = s.log.length := by
  have last (same : s'.created = s.created + 1) : n = s.created := by omega
  cases step_move stepped with
  | heard plain frame _ _ _ did =>
    rw [did.created] at known
    exact absurd known fresh
  | admits id reading =>
    obtain rfl := last rfl
    simp [Session.insert]
  | admitsNobody id reading =>
    obtain rfl := last rfl
    simp [Session.insert, Session.modify]
  | evicts id =>
    have same := removeAndClose_created s id
    exact absurd (same ▸ known) fresh
  | replies frame _ did =>
    have same := (alike_enqueue did).created
    exact absurd (same ▸ known) fresh
  | _ => exact absurd known fresh

theorem fromOpen_link {act : Session.Act} {id : UInt32} (kept : s.FromOpen id) (learnt : s.Learnt id)
    (opens : Opens (track id s.log)) (stepped : s.step act = some s') (tasks : act.isLive = true) :
    s'.FromOpen id := by
  intro n known about
  have log := (extends_step stepped tasks).log
  obtain ⟨older, same⟩ | ⟨-, reading, -⟩ := step_known stepped known
  · rw [log, (step_named stepped older).2]
    exact kept n older (same.symm.trans about)
  · have fresh : ¬ n < s.created := fun older =>
      (learnt.admits (reading.trans (by rw [about]))).1 n older
        ((step_named stepped older).1.symm.trans about)
    rw [log, step_since stepped known fresh, List.take_length]
    exact dataOn_opening opens (learnt.admits (reading.trans (by rw [about]))).2.2

theorem fromOpen_heard {frame : Frame} {id : UInt32} {act : Session.Act} (kept : s.FromOpen id) (wired : Wired s)
    (did : Heard s frame s') (stepped : s.step act = some s') : s'.FromOpen id := by
  intro n known about
  rw [did.created] at known
  obtain ⟨same, since⟩ := step_named stepped known
  rw [did.log, since, List.take_append_of_le_length (wired.fed n known).since]
  exact kept n known (same.symm.trans about)

theorem fromOpen_quiet {id : UInt32} (kept : s.FromOpen id) (quiet : Quiet s s') (created : s'.created = s.created) :
    s'.FromOpen id := by
  intro n known about
  rw [created] at known
  rw [quiet.log, quiet.since n known]
  exact kept n known ((quiet.id n known).symm.trans about)

theorem heard_all (early : dataOn (s.arena n).id (s.log.take (s.arena n).since) = []) :
    s.heard n = dataOn (s.arena n).id s.log := by
  rw [Session.heard, ← List.nil_append (dataOn _ (s.log.drop _)), ← early, ← dataOn_append, List.take_append_drop]

/-- The opener answers OPEN with nothing: nobody sends it one. -/
theorem PairMove.refuses {p q : Pair} {act : PairAct} (move : PairMove p act q) (silent : p.Silent)
    (kept : ∀ id, p.near.session.reader ≠ .refuse id none) (id : UInt32) :
    q.near.session.reader ≠ .refuse id none := by
  cases move with
  | nearLink act tasks did =>
    cases step_move did with
    | takeBatch | feed | release => exact kept id
    | heard | short | lapse | writerEnds | readerAborted | shutdownClear | shutdownAbort => cases tasks
    | _ => exact fun same => by cases same
  | nearTunnel name act did =>
    rw [Proxy.put_session, did.quiet.reader]
    exact kept id
  | nearHears frame next idle did =>
    have kind := silent frame (List.mem_of_getElem? (nextFrom_eq next).2)
    cases did with
    | overBudget _ opening => exact absurd opening kind
    | grants | ignores => exact kept id
    | closes =>
      rw [(quiet_removeAndClose _ _).reader]
      exact kept id
    | _ => exact fun same => by cases same
  | _ => exact kept id

/-- All that is kept of two joined ends here. -/
structure Pair.Served (p : Pair) : Prop where
  booked : p.Booked
  ready : p.near.Ready
  faithful : p.near.Faithful
  addressed : p.Addressed
  refuses : ∀ id, p.near.session.reader ≠ .refuse id none
  fromOpen : ∀ id, id ≠ 0 → p.near.session.Sole id → p.far.session.FromOpen id

/-- The opener of a pair takes steps of a proxy. -/
theorem Pair.step_near {p q : Pair} {act : PairAct} (stepped : p.step act = some q) :
    q.near = p.near ∨ ∃ act, p.near.step act = some q.near := by
  cases act with
  | near act =>
    cases act with
    | link act =>
      obtain ⟨-, did⟩ := Option.ite_none_right_eq_some.mp stepped
      obtain ⟨near, moved, rfl⟩ := Option.map_eq_some_iff.mp did
      exact .inr ⟨_, moved⟩
    | tunnel name act =>
      obtain ⟨near, moved, rfl⟩ := Option.map_eq_some_iff.mp stepped
      exact .inr ⟨_, moved⟩
  | far act =>
    cases act with
    | link act =>
      obtain ⟨-, did⟩ := Option.ite_none_right_eq_some.mp stepped
      obtain ⟨far, -, rfl⟩ := Option.map_eq_some_iff.mp did
      exact .inl rfl
    | _ =>
      obtain ⟨far, -, rfl⟩ := Option.map_eq_some_iff.mp stepped
      exact .inl rfl
  | nearHears =>
    obtain ⟨frame, -, did⟩ := Option.bind_eq_some_iff.mp stepped
    obtain ⟨near, heard, rfl⟩ := Option.map_eq_some_iff.mp did
    exact .inr ⟨_, heard⟩
  | farHears =>
    obtain ⟨frame, -, did⟩ := Option.bind_eq_some_iff.mp stepped
    obtain ⟨far, -, rfl⟩ := Option.map_eq_some_iff.mp did
    exact .inl rfl

theorem Pair.Served.start (nearStreams farStreams : Nat) : (Pair.start nearStreams farStreams).Served :=
  ⟨.start nearStreams farStreams, .start nearStreams, .start nearStreams, .start nearStreams farStreams,
    fun _ => Reader.noConfusion, fun _ _ _ n known => absurd known (Nat.not_lt_zero n)⟩

theorem Pair.Served.step {p q : Pair} {act : PairAct} (served : p.Served) (stepped : p.step act = some q) :
    q.Served := by
  obtain ⟨booked, ready, faithful, addressed, refuses, fromOpen⟩ := served
  have joined := booked.whole.joined
  have move := Pair.step_move joined stepped
  have near : q.near.Ready ∧ q.near.Faithful := by
    obtain same | ⟨act, did⟩ := Pair.step_near stepped
    · rw [same]
      exact ⟨ready, faithful⟩
    · exact ⟨ready.step joined.sound did, faithful.step did⟩
  refine ⟨booked.step stepped, near.1, near.2, addressed.step booked.whole stepped,
    move.refuses booked.whole.silent refuses, fun id stream sole => ?_⟩
  have before := move.sole_before sole
  have traced := booked.whole.traced id stream before
  have kept := fromOpen id stream before
  cases move with
  | farLink act tasks did => exact fromOpen_link kept traced.learnt (traced.log_opens joined) did tasks
  | farUser act did => exact fromOpen_quiet kept did.quiet.1 did.quiet.2
  | farHears frame next idle did read => exact fromOpen_heard kept joined.wired did read
  | _ => exact kept

theorem LinkPair.served {nearStreams farStreams : Nat} {actions : List LinkAct}
    (upOpens : ∀ nonce plain, up.readMessage nonce (up.writeMessage nonce plain) = .ok plain)
    (downOpens : ∀ nonce plain, down.readMessage nonce (down.writeMessage nonce plain) = .ok plain)
    (ran : run (LinkPair.step up down) (.start nearStreams farStreams) actions = some l) :
    l.Beneath up down l.frames ∧ l.frames.Served := by
  obtain ⟨acts, ran', beneath⟩ := LinkPair.run_frames upOpens downOpens ran
  exact ⟨beneath, run_preserves Pair.Served (fun _ _ _ served stepped => served.step stepped)
    (.start nearStreams farStreams) ran'⟩

/-- What the uplink has not passed on yet. -/
def Uplink.unsent : Uplink → Bytes
  | .sending stage => stage.rest
  | .off | .reading | .ended => []

/-- What has come through between a tunnel on its stream `n` and the far end's stream
`m` with the same id: the client has been shown all the far end has sent, whose send
is over, and the far end's inbox has been given all that the client has said, but for
what the far end's user has not given credit for. -/
structure LinkPair.Passed (l : LinkPair) (name n m : Nat) : Prop where
  finished : (l.far.sending m).isOver = true
  shown : (l.near.tunnels name).writes =
    (dataOn (l.near.session.arena n).id l.far.session.out.accepted).flatten
  passed : (l.far.session.arena m).inbox.isOpen = true →
    (l.far.session.arena m).inbox.accepted.flatten ++ (l.near.tunnels name).uplink.unsent =
      (l.near.tunnels name).head ++ (l.near.tunnels name).reads

theorem dataOn_silent {id : UInt32} {frames : List Frame} (silent : track id frames = []) : dataOn id frames = [] := by
  rw [dataOn, List.filterMap_eq_nil_iff]
  intro frame member
  have other : frame.id ≠ id := fun about => track_ne_nil.mpr ⟨frame, member, about⟩ silent
  simp [other]

/-- Nothing is on the way between the frames either. -/
theorem LinkPair.Settled.atRest (settled : l.Settled) : l.frames.AtRest := by
  refine ⟨?_, ?_, settled.near.idle, settled.far.idle, fun name => ?_⟩
  · rw [Pair.toFar, List.drop_eq_nil_iff]
    exact Nat.le_of_eq (congrArg List.length settled.toFar).symm
  · rw [Pair.toNear, List.drop_eq_nil_iff]
    exact Nat.le_of_eq (congrArg List.length settled.toNear).symm
  · obtain phase | phase | phase := (settled.tunnels name).phase <;>
      rw [show (l.frames.near.tunnels name).phase = _ from phase] <;> rfl

/-- At rest a running tunnel and the far end's stream of its id are connected. -/
theorem LinkPair.Settled.connects (settled : l.Settled) (served : l.frames.Served)
    (few : l.near.session.nextId < 2 ^ 32) {name n m : Nat} (running : (l.near.tunnels name).phase = .running)
    (own : (l.near.tunnels name).stream = some n)
    (far : l.far.session.streams (l.near.session.arena n).id = some m) :
    l.frames.Connects (l.near.session.arena n).id name n m := by
  have ids : l.near.Ids := served.booked.whole.ids few
  obtain ⟨-, -, waiting, k, mine, -, near⟩ := (settled.tunnels name).running running
  cases own.symm.trans mine
  refine ⟨own, near, far, fun i j first second one two => ?_, ?_, ?_⟩
  · exact ids.apart i j first second (one.trans two.symm)
  · rw [show (l.frames.near.tunnels name).downlink = _ from waiting]
    rfl
  · have idle : l.frames.near.session.reader = .idle := settled.near.idle
    simp [Reader.Lost, idle]

section Connected
variable {name m : Nat} (settled : l.Settled) (served : l.frames.Served)
  (connects : l.frames.Connects (l.near.session.arena n).id name n m)
include settled served connects

/-- A send that waited would have credit: all that has been sent has been granted back,
but for less than half a window. -/
theorem LinkPair.Settled.finished (waiting : (l.near.tunnels name).downlink = .waiting)
    (empty : (l.near.session.arena n).inbox.queue = []) : (l.far.sending m).isOver = true := by
  obtain ⟨present, -⟩ := served.booked.whole.joined.wired.valid.known connects.far
  obtain finished | starves := settled.sends m present
  · exact finished
  have atRest := settled.atRest
  cases sending : l.far.sending m with
  | acquire rest =>
    rw [sending] at starves
    have hand : (l.frames.far.sending m).inHand = 0 := by
      rw [show l.frames.far.sending m = _ from sending]
      rfl
    have offered : l.frames.near.session.reader.offered n = [] := by
      rw [show l.frames.near.session.reader = _ from settled.near.idle]
      rfl
    have queue : (l.frames.near.session.arena n).inbox.queue = [] := empty
    have landed : l.frames.inFlight (l.near.session.arena n).id n m = 0 := by
      rw [Pair.inFlight, hand, atRest.toNear, offered, queue]
      rfl
    have enough := (served.booked.resumes connects waiting landed (by rw [atRest.toFar]; rfl)).2.1
    have lacking := starves.2
    have most := Nat.min_le_right rest.length maxPayload
    exact absurd (Nat.lt_of_lt_of_le lacking (Nat.le_trans most enough)) (Nat.lt_irrefl _)
  | queue => simp [sending, Session.Starves] at starves
  | sent | broken => rfl

/-- The inbox of the tunnel has been given all that was sent, and the client has been
shown it. -/
theorem LinkPair.Settled.shown (stream : (l.near.session.arena n).id ≠ 0)
    (waiting : (l.near.tunnels name).downlink = .waiting) (empty : (l.near.session.arena n).inbox.queue = []) :
    (l.near.tunnels name).writes = (dataOn (l.near.session.arena n).id l.far.session.out.accepted).flatten := by
  have sound : l.near.Sound := served.booked.whole.joined.sound
  have known := sound.known connects.own
  have lost : ¬ l.near.session.reader.Lost n := connects.kept
  have offered : l.near.session.reader.offered n = [] := by
    rw [settled.near.idle]
    rfl
  have opened := (served.booked.listens name n connects.own connects.near).1
  have early := dataOn_silent ((served.booked.books _ stream connects.sole).1.since n known rfl)
  have complete := (sound.wired.fed n known).complete opened stream connects.near lost
  rw [offered, List.append_nil, ← Channel.take_append_queue, empty, List.append_nil, heard_all early,
    settled.toNear] at complete
  have written := (sound.down connects.own).written
  rw [waiting, Downlink.rest, List.append_nil, Stream.took, complete] at written
  exact written

/-- And the far end's inbox all that the uplink has sent. -/
theorem LinkPair.Settled.handed (stream : (l.near.session.arena n).id ≠ 0)
    (listening : (l.far.session.arena m).inbox.isOpen = true) :
    (l.far.session.arena m).inbox.accepted.flatten = l.near.session.queued n := by
  have wired : Wired l.far.session := served.booked.whole.joined.wired
  obtain ⟨known, under⟩ := wired.valid.known connects.far
  have idle := settled.far.idle
  have lost : ¬ l.far.session.reader.Lost m := by simp [Reader.Lost, idle]
  have offered : l.far.session.reader.offered m = [] := by
    rw [idle]
    rfl
  have early := served.fromOpen _ stream connects.sole m known under
  have found : l.far.session.streams (l.far.session.arena m).id = some m := by
    rw [under]
    exact connects.far
  have complete := (wired.fed m known).complete listening (by rw [under]; exact stream) found lost
  rw [offered, List.append_nil, heard_all (by rw [under]; exact early), under, settled.toFar] at complete
  rw [complete]
  rfl

omit connects in
theorem LinkPair.Settled.passed (few : l.near.session.nextId < 2 ^ 32)
    (running : (l.near.tunnels name).phase = .running) (own : (l.near.tunnels name).stream = some n)
    (far : l.far.session.streams (l.near.session.arena n).id = some m) : l.Passed name n m := by
  have connects := settled.connects served few running own far
  have ids : l.near.Ids := served.booked.whole.ids few
  have sound : l.near.Sound := served.booked.whole.joined.sound
  have stream : (l.near.session.arena n).id ≠ 0 := ids.nonzero (sound.known own)
  obtain ⟨begun, going, waiting, k, mine, empty, -⟩ := (settled.tunnels name).running running
  cases own.symm.trans mine
  refine ⟨settled.finished served connects waiting empty, settled.shown served connects stream waiting empty,
    fun listening => ?_⟩
  have unopened : l.near.session.Unopened := fun frame member =>
    served.booked.whole.silent frame (settled.toNear ▸ member)
  have sends := (served.faithful.uplinks unopened few).sends own
  rw [settled.handed served connects stream listening]
  unfold Tunnel.Sends at sends
  rw [show (l.frames.near.tunnels name).phase = _ from running] at sends
  cases uplink : (l.near.tunnels name).uplink with
  | off => exact absurd uplink begun
  | ended => exact absurd uplink going
  | reading =>
    rw [show (l.frames.near.tunnels name).uplink = _ from uplink] at sends
    exact (List.append_nil _).trans sends
  | sending stage =>
    rw [show (l.frames.near.tunnels name).uplink = _ from uplink] at sends
    exact sends

end Connected

/-- Where no CLOSE has been lost, both ends of a link at rest have the same streams. -/
theorem LinkPair.Settled.joined {nearStreams farStreams : Nat} {actions : List LinkAct} {id : UInt32}
    (settled : l.Settled)
    (upOpens : ∀ nonce plain, up.readMessage nonce (up.writeMessage nonce plain) = .ok plain)
    (downOpens : ∀ nonce plain, down.readMessage nonce (down.writeMessage nonce plain) = .ok plain)
    (ran : run (LinkPair.step up down) (.start nearStreams farStreams) actions = some l)
    (permitted : Meets (LinkPair.step up down) (LinkPair.Seen Pair.Permits) (.start nearStreams farStreams) actions)
    (stream : id ≠ 0) (sole : l.near.session.Sole id) :
    l.near.session.streams id ≠ none ↔ l.far.session.streams id ≠ none := by
  obtain ⟨acts, ran', allowed, -⟩ := LinkPair.run_beneath upOpens downOpens permitted ran
  obtain ⟨-, agree⟩ : l.frames.Whole ∧ (l.frames.near.session.Sole id → (l.frames.view id).Agree) := by
    refine run_preserves_where (fun p => Pair.Whole p ∧ (p.near.session.Sole id → (p.view id).Agree)) ?_
      ⟨.start nearStreams farStreams, fun _ => start_agrees nearStreams farStreams id⟩ allowed ran'
    rintro p act q ⟨whole, agree⟩ permits stepped
    have move := Pair.step_move whole.joined stepped
    have after := whole.step stepped
    exact ⟨after, fun sole => (move.turn whole after stream sole permits).agree (agree (move.sole_before sole))⟩
  exact settled.atRest.agree (agree sole)

/-- A tunnel nobody has spoken of waits. -/
theorem LinkPair.Settled.reached {room nearStreams farStreams : Nat} {actions : List LinkAct}
    (ran : run (LinkPair.stepIn room up down) (.start nearStreams farStreams) actions = some l)
    (clear : l.up.Clear) (back : l.down.Clear) (near : l.near.session.Rested) (far : l.far.session.Rested)
    (toFar : l.far.session.log = l.near.session.out.accepted)
    (toNear : l.near.session.log = l.far.session.out.accepted)
    (tunnels : ∀ name ∈ LinkAct.named actions, (l.near.tunnels name).Waits l.near.session)
    (sends : ∀ m < l.far.session.created,
      (l.far.sending m).isOver = true ∨ l.far.session.Starves m (l.far.sending m)) : l.Settled := by
  refine ⟨clear, back, near, far, toFar, toNear, fun name => ?_, sends⟩
  by_cases spoken : name ∈ LinkAct.named actions
  · exact tunnels name spoken
  · rw [(LinkPair.run_within (run_widens (LinkPair.stepIn_less room up down) ran) name spoken).1]
    exact waits_unbegun _

end DshProxy.Mux

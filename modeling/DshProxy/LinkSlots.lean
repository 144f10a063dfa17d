import DshProxy.LinkDelivery
import DshProxy.ServeExit

/-! The slots of a link. `try_open_stream` takes one before it puts a stream into the
map, and the state that leaves the map gives it back. So as long as a link lives every
slot is free, on its way back, in the hands of a tunnel that is opening, or with one
entry of the map; and every entry is some tunnel's that has yet to leave it. At rest
there are as many slots in use as tunnels that run. -/
namespace DshProxy.Mux
open Sync Wire Transitions

variable {s s' : Session} {t t' : Tunnel} {p q : Proxy} {names : Finset Nat} {n : Nat} {id : UInt32}

/-- The caller has a slot and has not put its stream into the map yet. -/
def Phase.reserves : Phase → Bool
  | .opening .allocate | .opening (.insert _) => true
  | _ => false

theorem hangUp_permits (s : Session) (stream : Nat) : (s.hangUp stream).permits = s.permits :=
  (owes_modify s stream _ rfl).permits rfl

/-- A tunnel takes slots from its link and gives them to it; none is lost. -/
theorem Move.permits {act : TunnelAct} (move : Move s t act s' t') (valid : Valid s) :
    s'.permits + t'.phase.reserves.toNat = s.permits + t.phase.reserves.toNat := by
  have kept (owes : Owes s s') : s'.permits = s.permits := owes.permits (by rw [move.quiet.reader])
  have neither (same : s'.permits = s.permits) (before : t.phase.reserves = false)
      (after : t'.phase.reserves = false) :
      s'.permits + t'.phase.reserves.toNat = s.permits + t.phase.reserves.toNat := by
    rw [same, before, after]
  cases move with
  | begin _ phase | refused phase | announceFails _ phase => exact neither rfl (by rw [phase]; rfl) rfl
  | reserve phase did =>
    obtain ⟨free, same⟩ := Option.ite_none_left_eq_some.mp did
    cases same
    simp only [phase, Phase.reserves, Session.permits, Session.count, Bool.toNat_true, Bool.toNat_false]
    omega
  | allocate phase =>
    rw [phase]
    rfl
  | insert id phase =>
    rw [phase]
    exact permits_insert valid id
  | announce stream phase did => exact neither (kept (owes_enqueue did)) (by rw [phase]; rfl) rfl
  | giveUp stream phase =>
    exact neither ((hangUp_permits _ stream).trans (permits_remove valid _)) (by rw [phase]; rfl) rfl
  | greeting stage next stream phase _ did =>
    refine neither (kept (owes_sendStep did)) (by rw [phase]; rfl) ?_
    cases next <;> rfl
  | rejected stage stream phase _ did =>
    have sent := (owes_sendStep did).permits (by rw [(quiet_sendStep did).reader])
    exact neither ((hangUp_permits _ stream).trans sent) (by rw [phase]; rfl) rfl
  | closed stream phase _ did =>
    have queued := (owes_enqueue did).permits (by rw [(quiet_enqueue did).reader])
    exact neither ((hangUp_permits _ stream).trans queued) (by rw [phase]; rfl) rfl
  | closeFails stream phase => exact neither (hangUp_permits s stream) (by rw [phase]; rfl) rfl
  | leave stream phase => exact neither (permits_remove valid _) (by rw [phase]; rfl) rfl
  | uplinkSend stage next stream _ _ did => rw [kept (owes_sendStep did)]
  | recv stream chunk _ _ _ did => rw [kept (owes_take did)]
  | grant stream _ _ _ did => rw [kept (owes_enqueue did)]
  | _ => rfl

theorem SendMove.owes {stage next : Sending} (move : SendMove s n stage s' next) : Owes s s' := by
  cases move with
  | spends => exact owes_modify s n _ rfl
  | queues chunk rest did => exact owes_enqueue did
  | _ => exact .same s

theorem permits_closeStream {stream : Nat} {sent : Bool} (valid : Valid s)
    (did : s.closeStream stream sent = some s') : s'.permits = s.permits := by
  have removed := permits_removeAndClose valid (s.arena stream).id
  obtain ⟨-, queued⟩ | ⟨-, rfl⟩ := closeStream_cases did
  · have kept := (owes_enqueue queued).permits (by rw [(quiet_enqueue queued).reader])
    exact kept.trans removed
  · exact removed

theorem AcceptorMove.permits {a b : Acceptor} {act : AcceptorAct} (move : AcceptorMove a act b)
    (valid : Valid a.session) : b.session.permits = a.session.permits := by
  have kept (owes : Owes a.session b.session) : b.session.permits = a.session.permits :=
    owes.permits (by rw [move.quiet.1.reader])
  cases move with
  | proceed stream next _ did => exact kept did.owes
  | recv stream chunk _ did => exact kept (owes_take did)
  | grants stream bytes _ did => exact kept (owes_enqueue did)
  | shutdown stream sent _ did => exact permits_closeStream valid did
  | drop stream sent _ did => exact (hangUp_permits _ stream).trans (permits_closeStream valid did)
  | _ => rfl

/-! Whose the entries of the map are. -/

/-- The stream is in the map and its OPEN has not been sent. -/
def Tunnel.Unsaid (t : Tunnel) (n : Nat) : Prop :=
  t.phase = .opening (.announce n) ∨ t.phase = .opening (.giveUp n)

/-- The caller has taken its stream out of the map. -/
def Phase.isOver : Phase → Bool
  | .closing | .returned => true
  | _ => false

/-- Whatever a tunnel leaves in the map was there before, or has been put there by
its open. -/
theorem Move.entries {act : TunnelAct} (move : Move s t act s' t') (fits : t.Fits)
    (found : s'.streams id = some n) : s.streams id = some n ∨ t'.Unsaid n := by
  obtain kept | ⟨drawn, -, phase, rfl, own⟩ | ⟨stream, -, kept⟩ := move.map_slots fits
  · rw [kept.streams] at found
    exact .inl found
  · by_cases here : id = drawn
    · subst here
      have new : s.created = n := by simpa [Session.insert] using found
      obtain same | ⟨_, -, -, rfl⟩ := move.stream
      · have place := fits.place
        rw [phase] at place
        rw [same, place] at own
        cases own
      · exact .inr (.inl (by rw [new]))
    · exact .inl (by simpa [Session.insert, here] using found)
  · rw [kept.streams, remove_streams] at found
    split at found
    · cases found
    · exact .inl found

/-- On a live link a tunnel does not come to its end while its stream is in the map. -/
theorem Move.holds {act : TunnelAct} (move : Move s t act s' t') (fits : t.Fits) (valid : Valid s) (live : Live s)
    (lively : t.Lively) (own : t.stream = some n) (going : t.phase.isOver = false) (known : s.streams id = some n)
    (found : s'.streams id = some n) : t'.stream = some n ∧ t'.phase.isOver = false := by
  have named := (valid.known known).2
  have place := fits.place
  cases move with
  | begin _ phase | reserve phase | refused phase | allocate phase | insert _ phase =>
    rw [phase] at place
    rw [place] at own
    cases own
  | announce => exact ⟨own, rfl⟩
  | announceFails => exact ⟨own, rfl⟩
  | giveUp stream phase => exact absurd phase (lively.announced stream)
  | greeting stage next _ _ _ _ kept =>
    cases next with
    | broken => exact absurd rfl kept
    | _ => exact ⟨own, rfl⟩
  | rejected stage stream _ mine did =>
    -- The gates of the map are open, and so is the outbox.
    cases mine.symm.trans own
    have fails := sendStep_fails did
    cases stage with
    | acquire rest => exact absurd ((valid.gate known).symm.trans fails) (by simp)
    | queue chunk rest => exact absurd (live.opened.symm.trans fails) (by simp)
    | sent | broken => exact fails.elim
  | closed _ phase | closeFails _ phase =>
    rw [phase] at going
    cases going
  | leave stream _ mine =>
    cases mine.symm.trans own
    simp [named] at found
  | _ => exact ⟨own, going⟩

/-- A link step puts nothing into the map unless a peer's OPEN is being admitted. -/
theorem step_entered {act : Session.Act} (stepped : s.step act = some s')
    (admits : ∀ other, s.reader ≠ .accepting other) (found : s'.streams id = some n) : s.streams id = some n := by
  obtain ⟨same, -⟩ | ⟨other, -, same⟩ | ⟨-, same⟩ | ⟨other, -, reading, -⟩ := step_map stepped
  · rw [same.streams] at found
    exact found
  · rw [same.streams] at found
    exact removeAndClose_found found
  · rw [same.streams] at found
    cases found
  · exact absurd reading (admits other)

/-- Every entry of the map is the stream of a tunnel that has not left it yet. -/
def Proxy.Held (p : Proxy) : Prop :=
  ∀ id n, p.session.streams id = some n →
    ∃ name, (p.tunnels name).stream = some n ∧ (p.tunnels name).phase.isOver = false

theorem Proxy.Held.link {act : Session.Act} (held : p.Held) (stepped : p.session.step act = some s')
    (admits : ∀ other, p.session.reader ≠ .accepting other) : ({ p with session := s' } : Proxy).Held :=
  fun id n found => held id n (step_entered stepped admits found)

theorem Proxy.Held.tunnel {name : Nat} {act : TunnelAct} (held : p.Held) (sound : p.Sound)
    (live : Live p.session) (lively : (p.tunnels name).Lively)
    (move : Move p.session (p.tunnels name) act s' t') : (p.put name s' t').Held := by
  intro id n found
  have fits := sound.fits name
  obtain known | unsaid := move.entries fits found
  · obtain ⟨other, own, going⟩ := held id n known
    refine ⟨other, ?_⟩
    by_cases here : other = name
    · subst here
      rw [Proxy.put_self]
      exact move.holds fits sound.wired.valid live lively own going known found
    · rw [Proxy.put_other p here]
      exact ⟨own, going⟩
  · refine ⟨name, ?_⟩
    rw [Proxy.put_self]
    have place := (move.fits fits).place
    obtain phase | phase := unsaid <;> rw [phase] at place ⊢ <;> exact ⟨place, rfl⟩

/-! Counting. -/

/-- The tunnels that have taken a slot and put nothing into the map yet. -/
def Proxy.opening (p : Proxy) : Set Nat := { name | (p.tunnels name).phase.reserves = true }

def Session.entries (s : Session) : Set Nat := { n | s.streams (s.arena n).id = some n }

/-- The tunnels whose streams are in the map. -/
def Proxy.holding (p : Proxy) : Set Nat := { name | ∃ n ∈ p.session.entries, (p.tunnels name).stream = some n }

/-- The tunnels in `select!`. -/
def Proxy.running (p : Proxy) : Set Nat := { name | (p.tunnels name).phase = .running }

theorem count_entries (valid : Valid s) : s.count = s.entries.ncard := by
  have same : s.entries = ((Finset.range s.created).filter fun n => s.streams (s.arena n).id = some n : Finset Nat) := by
    ext n
    simp only [Session.entries, Finset.coe_filter, Finset.mem_range]
    exact ⟨fun found => ⟨(valid.known found).1, found⟩, fun found => found.2⟩
  rw [same, Set.ncard_coe_finset, Session.count, List.countP_eq_length_filter]
  rfl

theorem Proxy.holding_entries (sound : p.Sound) (held : p.Held) : p.holding.ncard = p.session.entries.ncard := by
  refine Set.BijOn.ncard_eq (f := fun name => (p.tunnels name).stream.getD 0) ⟨?_, ?_, ?_⟩
  · rintro name ⟨n, entry, own⟩
    simpa [own] using entry
  · rintro name ⟨n, -, own⟩ other ⟨k, -, theirs⟩ same
    simp only [own, theirs, Option.getD_some] at same
    subst same
    exact sound.apart own theirs
  · intro n entry
    obtain ⟨name, own, -⟩ := held _ n entry
    exact ⟨name, ⟨n, entry, own⟩, by simp [own]⟩

/-- A tunnel whose stream is in the map is the one that has not left it. -/
theorem Proxy.Held.going {name : Nat} (held : p.Held) (sound : p.Sound) (holding : name ∈ p.holding) :
    (p.tunnels name).phase.isOver = false := by
  obtain ⟨n, entry, own⟩ := holding
  obtain ⟨other, theirs, going⟩ := held _ n entry
  obtain rfl := sound.apart own theirs
  exact going

/-- Two sessions with the same ids in their maps have as many entries. -/
theorem entries_agree {u : Session} (valid : Valid s) (theirs : Valid u)
    (agree : ∀ id, s.streams id ≠ none ↔ u.streams id ≠ none) : s.entries.ncard = u.entries.ncard := by
  have across {n : Nat} (entry : n ∈ s.entries) :
      ∃ m, u.streams (s.arena n).id = some m ∧ (u.arena m).id = (s.arena n).id := by
    have found := (agree (s.arena n).id).mp (by rw [show s.streams _ = some n from entry]; simp)
    obtain ⟨m, found⟩ := Option.ne_none_iff_exists'.mp found
    exact ⟨m, found, (theirs.known found).2⟩
  refine Set.BijOn.ncard_eq (f := fun n => (u.streams (s.arena n).id).getD 0) ⟨?_, ?_, ?_⟩
  · intro n entry
    obtain ⟨m, found, named⟩ := across entry
    simp [Session.entries, found, named]
  · intro n entry k other same
    obtain ⟨m, found, named⟩ := across entry
    obtain ⟨m', found', named'⟩ := across other
    simp only [found, found', Option.getD_some] at same
    subst same
    have ids := named.symm.trans named'
    have one : s.streams (s.arena n).id = some n := entry
    rw [ids] at one
    exact Option.some.inj (one.symm.trans other)
  · intro m entry
    have found : u.streams (u.arena m).id = some m := entry
    obtain ⟨n, mine⟩ := Option.ne_none_iff_exists'.mp ((agree (u.arena m).id).mpr (by rw [found]; simp))
    have named := (valid.known mine).2
    refine ⟨n, ?_, ?_⟩
    · exact (congrArg s.streams named).trans mine
    · simp [named, found]

/-- What is kept of the slots of two joined ends. -/
structure Pair.Slotted (nearStreams farStreams : Nat) (p : Pair) : Prop where
  finite : p.near.opening.Finite
  near : p.near.session.permits + p.near.opening.ncard = max nearStreams 1
  far : p.far.session.permits = max farStreams 1
  held : p.near.session.nextId < 2 ^ 32 → p.near.Held

theorem Pair.Slotted.start (nearStreams farStreams : Nat) :
    (Pair.start nearStreams farStreams).Slotted nearStreams farStreams := by
  have nobody : (Pair.start nearStreams farStreams).near.opening = ∅ :=
    Set.eq_empty_iff_forall_notMem.mpr fun name opening => by cases opening
  refine ⟨?_, ?_, rfl, fun _ id n found => ?_⟩
  · rw [nobody]
    exact Set.finite_empty
  · rw [nobody, Set.ncard_empty]
    rfl
  · cases found

theorem Pair.Slotted.step {nearStreams farStreams : Nat} {p q : Pair} {act : PairAct}
    (slotted : p.Slotted nearStreams farStreams) (whole : p.Whole) (stepped : p.step act = some q) :
    q.Slotted nearStreams farStreams := by
  obtain ⟨finite, near, far, held⟩ := slotted
  obtain ⟨sound, lively, nearLive, wired, -, -, -, -⟩ := whole.joined
  have valid := sound.wired.valid
  have linked {act : Session.Act} {session : Session} (did : p.near.session.step act = some session) :
      ({ p with near := { p.near with session } } : Pair).Slotted nearStreams farStreams := by
    have permits := step_permits valid did
    refine ⟨finite, ?_, far, fun few => ?_⟩
    · rw [← near, ← permits]
      rfl
    · have few : p.near.session.nextId < 2 ^ 32 := step_nextId did ▸ few
      exact (held few).link did (whole.ids few).reader
  cases Pair.step_move whole.joined stepped with
  | nearLink act tasks did => exact linked did
  | nearHears frame next idle did read =>
    obtain ⟨session, heard, same⟩ := Option.map_eq_some_iff.mp read
    cases same
    exact linked heard
  | nearTunnel name act move =>
    rename_i session tunnel
    obtain ⟨after, moved⟩ := ncard_changed (f := fun other => (p.near.tunnels other).phase.reserves)
      (g := fun other => ((p.near.put name session tunnel).tunnels other).phase.reserves) (k := name) finite
      fun other away => by rw [Proxy.put_other p.near away]
    have permits := move.permits valid
    refine ⟨after, ?_, far, fun few => ?_⟩
    · rw [Proxy.put_self] at moved
      simp only [Proxy.opening] at near ⊢
      rw [Proxy.put_session]
      omega
    · have few : p.near.session.nextId < 2 ^ 32 := Nat.lt_of_le_of_lt move.nextId few
      exact (held few).tunnel sound nearLive (lively name) move
  | farLink act tasks did => exact ⟨finite, near, (step_permits wired.valid did).trans far, held⟩
  | farUser act did => exact ⟨finite, near, (did.permits wired.valid).trans far, held⟩
  | farHears frame next idle did read => exact ⟨finite, near, (step_permits wired.valid read).trans far, held⟩

variable {up down : Transport} {l : LinkPair}

theorem LinkPair.slotted {nearStreams farStreams : Nat} {actions : List LinkAct}
    (upOpens : ∀ nonce plain, up.readMessage nonce (up.writeMessage nonce plain) = .ok plain)
    (downOpens : ∀ nonce plain, down.readMessage nonce (down.writeMessage nonce plain) = .ok plain)
    (ran : run (LinkPair.step up down) (.start nearStreams farStreams) actions = some l) :
    l.frames.Whole ∧ l.frames.Slotted nearStreams farStreams := by
  obtain ⟨acts, ran', -⟩ := LinkPair.run_frames upOpens downOpens ran
  exact run_preserves (fun p => Pair.Whole p ∧ p.Slotted nearStreams farStreams)
    (fun p act q kept stepped => ⟨kept.1.step stepped, kept.2.step kept.1 stepped⟩)
    ⟨.start nearStreams farStreams, .start nearStreams farStreams⟩ ran'

/-- At rest no tunnel is opening, and the ones whose streams are in the map are those
that run. -/
theorem LinkPair.Settled.holding (settled : l.Settled) (sound : l.near.Sound) (held : l.near.Held) :
    l.near.opening = ∅ ∧ l.near.holding = l.near.running := by
  refine ⟨Set.eq_empty_iff_forall_notMem.mpr fun name opening => ?_, ?_⟩
  · have opening : (l.near.tunnels name).phase.reserves = true := opening
    obtain phase | phase | phase := (settled.tunnels name).phase <;> rw [phase] at opening <;> cases opening
  · ext name
    refine ⟨fun holding => ?_, fun running => ?_⟩
    · have going := held.going sound holding
      obtain ⟨n, -, own⟩ := holding
      obtain phase | phase | phase := (settled.tunnels name).phase
      · have place := (sound.fits name).place
        rw [phase] at place
        rw [place] at own
        cases own
      · exact phase
      · rw [phase] at going
        cases going
    · obtain ⟨-, -, -, n, own, -, found⟩ := (settled.tunnels name).running running
      exact ⟨n, found, own⟩

theorem LinkPair.Settled.same_entries {nearStreams farStreams : Nat} {actions : List LinkAct} (settled : l.Settled)
    (upOpens : ∀ nonce plain, up.readMessage nonce (up.writeMessage nonce plain) = .ok plain)
    (downOpens : ∀ nonce plain, down.readMessage nonce (down.writeMessage nonce plain) = .ok plain)
    (ran : run (LinkPair.step up down) (.start nearStreams farStreams) actions = some l)
    (permitted : Meets (LinkPair.step up down) (LinkPair.Seen Pair.Permits) (.start nearStreams farStreams) actions)
    (whole : l.frames.Whole) (few : l.near.session.nextId < 2 ^ 32) :
    l.near.session.entries.ncard = l.far.session.entries.ncard := by
  have near : Valid l.near.session := whole.joined.sound.wired.valid
  have far : Valid l.far.session := whole.joined.wired.valid
  have ids : l.near.Ids := whole.ids few
  refine entries_agree near far fun id => ?_
  by_cases zero : id = 0
  · -- No stream is opened on the keepalive id, here or there.
    subst zero
    refine iff_of_false (fun has => ?_) (fun has => ?_)
    · obtain ⟨n, found⟩ := Option.ne_none_iff_exists'.mp has
      obtain ⟨known, named⟩ := near.known found
      exact ids.nonzero known named
    · obtain ⟨n, found⟩ := Option.ne_none_iff_exists'.mp has
      obtain ⟨known, named⟩ := far.known found
      exact whole.nonzero.streams n known named
  · have sole : l.near.session.Sole id := fun i j first second one two =>
      ids.apart i j first second (one.trans two.symm)
    exact settled.joined upOpens downOpens ran permitted zero sole

/-- A live link whose ids have lasted loses none of its slots, however small the sockets
are. At any time the
free ones, those on their way back, those of tunnels that are opening and those of
tunnels whose streams are in the map are all there are; and no tunnel that is past
`select!` is among these. Where all has come through, what is not free is one slot for
each tunnel that runs; and so it is at the far end, where no CLOSE was lost. -/
theorem links_lose_no_slots {room nearStreams farStreams : Nat} {actions : List LinkAct}
    (upOpens : ∀ nonce plain, up.readMessage nonce (up.writeMessage nonce plain) = .ok plain)
    (downOpens : ∀ nonce plain, down.readMessage nonce (down.writeMessage nonce plain) = .ok plain)
    (ran : run (LinkPair.stepIn room up down) (.start nearStreams farStreams) actions = some l)
    (few : l.near.session.nextId < 2 ^ 32) :
    (l.near.session.budget + l.near.session.limbo + l.near.opening.ncard + l.near.holding.ncard = max nearStreams 1 ∧
      ∀ name ∈ l.near.holding, (l.near.tunnels name).phase.isOver = false) ∧
    (l.Settled →
      l.near.session.budget + l.near.running.ncard = max nearStreams 1 ∧
      (Meets (LinkPair.stepIn room up down) (LinkPair.Seen Pair.Permits) (.start nearStreams farStreams) actions →
        l.far.session.budget + l.near.running.ncard = max farStreams 1)) := by
  have less := LinkPair.stepIn_less room up down
  have wide := run_widens less ran
  obtain ⟨whole, -, near, far, held⟩ := LinkPair.slotted upOpens downOpens wide
  have sound : l.near.Sound := whole.joined.sound
  have held : l.near.Held := held few
  have counted : l.near.session.count = l.near.holding.ncard := by
    rw [count_entries sound.wired.valid, Proxy.holding_entries sound held]
  have admits : l.near.session.reader.reserves = false := by
    have never := (whole.ids few).reader
    cases reading : l.near.session.reader with
    | accepting id => exact absurd reading (never id)
    | _ => rfl
  have total : l.near.session.budget + l.near.session.count + l.near.session.limbo + l.near.opening.ncard =
      max nearStreams 1 := by
    have permits : l.near.session.permits + l.near.opening.ncard = max nearStreams 1 := near
    rw [Session.permits, admits] at permits
    exact permits
  refine ⟨⟨by omega, fun name holding => held.going sound holding⟩, fun settled => ?_⟩
  · obtain ⟨nobody, running⟩ := settled.holding sound held
    rw [nobody, Set.ncard_empty, settled.near.freed, counted, running] at total
    refine ⟨total, fun permitted => ?_⟩
    have same := settled.same_entries upOpens downOpens wide (meets_widens less permitted ran) whole few
    have valid : Valid l.far.session := whole.joined.wired.valid
    rw [← Proxy.holding_entries sound held, running, ← count_entries valid] at same
    have theirs : l.far.session.permits = max farStreams 1 := far
    rw [Session.permits, settled.far.freed, settled.far.idle] at theirs
    simp only [Reader.reserves, Bool.toNat_false] at theirs
    omega

/-- A tunnel comes up, and its client leaves. -/
private def visit : List LinkAct :=
  .near (.tunnel 0 (.begin (List.replicate 37 0))) :: List.replicate 6 (.near (.tunnel 0 .proceed)) ++
    [.near (.link (.takeBatch 2)), .near (.link .feed), .near (.link .feed), .nearWrites 89, .farReads 89,
      .farHears, .far (.link .advance), .farHears, .far (.link .advance),
      .near (.tunnel 0 .readEnds), .near (.tunnel 0 .leave), .near (.tunnel 0 .proceed), .near (.link .release),
      .near (.link (.takeBatch 1)), .near (.link .feed), .nearWrites 26, .farReads 26, .farHears,
      .far (.link .release)]

theorem links_lose_no_slots_visit :
    ∃ l, run (LinkPair.stepIn 100 .tagging .tagging) (.start 1 1) visit = some l ∧ l.Settled ∧
      (l.near.tunnels 0).phase = .returned ∧ l.near.session.budget + l.near.running.ncard = 1 := by
  have checked : ((run (LinkPair.stepIn 100 .tagging .tagging) (.start 1 1) visit).any fun l => decide (
      (l.up.Clear ∧ l.down.Clear ∧ l.near.session.Rested ∧ l.far.session.Rested ∧
        l.far.session.log = l.near.session.out.accepted ∧ l.near.session.log = l.far.session.out.accepted) ∧
      (l.near.tunnels 0).phase = .returned ∧ (l.near.tunnels 0).uplink = .ended ∧
      l.far.session.created = 1 ∧ l.far.sending 0 = .sent ∧ l.near.session.nextId < 2 ^ 32)) = true := by
    decide +kernel
  obtain ⟨l, ran, ⟨up, down, near, far, toFar, toNear⟩, returned, ended, created, sent, few⟩ := run_reaches checked
  have only : LinkAct.named visit = {0} := by decide +kernel
  have settled : l.Settled := by
    refine .reached ran up down near far toFar toNear (fun name spoken => ?_) fun m known => ?_
    · rw [only] at spoken
      obtain rfl := Finset.mem_singleton.mp spoken
      exact ⟨by simp [returned], by simp [ended], by simp [returned]⟩
    · obtain rfl : m = 0 := by omega
      rw [sent]
      exact .inl rfl
  obtain ⟨-, slots⟩ := links_lose_no_slots Transport.tagging_opens Transport.tagging_opens ran few
  exact ⟨l, ran, settled, returned, (slots settled).1⟩

end DshProxy.Mux

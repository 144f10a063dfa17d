import DshProxy.EndToEnd
import DshProxy.MuxCredit
import DshProxy.InboxBytes

/-! The frames of one stream, in the order they are queued. Three tasks queue
them: the uplink, the caller of `serve_client` with its downlink, and `read_loop`,
which answers an overflow. Whoever queues a CLOSE does not wait for the others,
so they are in order only as long as none of them has anything left to say. -/
namespace DshProxy.Mux
open Sync Wire Transitions

variable {s s' : Session} {t t' : Tunnel} {p next : Proxy} {n : Nat}

/-- One OPEN, then DATA and WINDOW, then only CLOSE; or a front part of that. -/
def Orderly (id : UInt32) (frames : List Frame) : Prop :=
  frames = [] ∨ ∃ body closes, frames = .control id .opening :: (body ++ closes) ∧
    (∀ frame ∈ body, frame.kind = .data ∨ frame.kind = .window) ∧ ∀ frame ∈ closes, frame.kind = .close

/-- Behind the first CLOSE there is nothing else. -/
theorem Orderly.after_close {id : UInt32} {before rest : List Frame} {frame : Frame}
    (orderly : Orderly id (before ++ frame :: rest)) (close : frame.kind = .close) :
    ∀ later ∈ rest, later.kind = .close := by
  obtain none | ⟨body, closes, shape, first, last⟩ := orderly
  · simp at none
  · intro later member
    cases before with
    | nil =>
      obtain ⟨rfl, -⟩ := List.cons.inj shape
      cases close
    | cons opening before =>
      obtain ⟨-, shape⟩ := List.cons.inj shape
      obtain ⟨more, rfl, split⟩ | ⟨more, -, rfl⟩ := List.append_eq_append_iff.mp shape
      · cases more with
        | nil =>
          rw [List.nil_append] at split
          exact last later (split ▸ List.mem_cons_of_mem _ member)
        | cons other more =>
          obtain ⟨rfl, -⟩ := List.cons.inj split
          have kind := first frame (by simp)
          rw [close] at kind
          simp at kind
      · exact last later (by simp [member])

/-- A send on the stream fails, or waits for credit that nobody can give any more. -/
def Session.Starved (s : Session) (n need : Nat) : Prop :=
  (s.arena n).credit.closed = true ∨
    (s.streams (s.arena n).id ≠ some n ∧ (s.arena n).credit.permits < need)

/-- The send has no more DATA to queue. -/
def Session.Stuck (s : Session) (n : Nat) : Sending → Prop
  | .acquire rest => s.Starved n (min rest.length maxPayload)
  | .queue _ _ => False
  | .sent | .broken => True

/-- The uplink has no more DATA to queue. -/
def Session.Spent (s : Session) (n : Nat) : Uplink → Prop
  | .off | .ended => True
  | .reading => s.Starved n 1
  | .sending stage => s.Stuck n stage

/-- What is owed and what the inbox can still bring do not add up to a grant. -/
def Session.Short (s : Session) (n owed : Nat) : Prop :=
  s.streams (s.arena n).id ≠ some n ∧ s.reader.offered n = [] ∧
    owed + (s.arena n).backlog < grantThreshold

/-- The downlink has no more WINDOW to queue. -/
def Session.Settles (s : Session) (n pending : Nat) : Downlink → Prop
  | .waiting => s.Short n pending
  | .writing _ size => s.Short n (pending + size)
  | .granting => False
  | .shutting _ | .ended _ => True

/-- The tunnel has sent its OPEN and has nothing to send but CLOSE. -/
def Session.Mute (s : Session) (n : Nat) (t : Tunnel) : Prop :=
  match t.phase with
  | .idle | .opening _ => False
  | .greeting stage => s.Stuck n stage
  | .running => s.Spent n t.uplink ∧ s.Settles n t.pending t.downlink
  | .closing | .returned => s.Spent n t.uplink

/-- The id is new on the link: no stream has had it and no frame has carried it. -/
def Session.NewId (s : Session) (id : UInt32) : Prop :=
  id ≠ 0 ∧ (∀ n < s.created, (s.arena n).id ≠ id) ∧ ∀ frame ∈ s.out.accepted, frame.id ≠ id

/-- New streams get new ids, and a CLOSE for the tunnel's stream is queued only
once the tunnel has nothing else to send on it. -/
def Proxy.Hushes (name : Nat) (p : Proxy) : ProxyAct → Prop
  | .link .reply => ∀ n ∈ (p.tunnels name).stream,
      p.session.reader.replies = some (.control (p.session.arena n).id .close) →
        p.session.Mute n (p.tunnels name)
  | .tunnel other .proceed =>
    match (p.tunnels other).phase with
    | .opening (.insert id) => p.session.NewId id
    | .closing => other = name → ∀ n ∈ (p.tunnels name).stream, p.session.Mute n (p.tunnels name)
    | _ => True
  | _ => True

instance (s : Session) (n need : Nat) : Decidable (s.Starved n need) :=
  inferInstanceAs (Decidable (_ ∨ _))

instance (s : Session) (n : Nat) : (stage : Sending) → Decidable (s.Stuck n stage)
  | .acquire _ => inferInstanceAs (Decidable (s.Starved n _))
  | .queue _ _ => isFalse id
  | .sent | .broken => isTrue trivial

instance (s : Session) (n : Nat) : (uplink : Uplink) → Decidable (s.Spent n uplink)
  | .off | .ended => isTrue trivial
  | .reading => inferInstanceAs (Decidable (s.Starved n 1))
  | .sending stage => inferInstanceAs (Decidable (s.Stuck n stage))

instance (s : Session) (n owed : Nat) : Decidable (s.Short n owed) :=
  inferInstanceAs (Decidable (_ ∧ _ ∧ _))

instance (s : Session) (n pending : Nat) : (down : Downlink) → Decidable (s.Settles n pending down)
  | .waiting => inferInstanceAs (Decidable (s.Short n pending))
  | .writing _ size => inferInstanceAs (Decidable (s.Short n (pending + size)))
  | .granting => isFalse id
  | .shutting _ | .ended _ => isTrue trivial

instance (s : Session) (n : Nat) (t : Tunnel) : Decidable (s.Mute n t) :=
  match phase : t.phase with
  | .idle => isFalse (by simp [Session.Mute, phase])
  | .opening _ => isFalse (by simp [Session.Mute, phase])
  | .greeting stage => decidable_of_iff (s.Stuck n stage) (by simp [Session.Mute, phase])
  | .running => decidable_of_iff (s.Spent n t.uplink ∧ s.Settles n t.pending t.downlink)
      (by simp [Session.Mute, phase])
  | .closing => decidable_of_iff (s.Spent n t.uplink) (by simp [Session.Mute, phase])
  | .returned => decidable_of_iff (s.Spent n t.uplink) (by simp [Session.Mute, phase])

instance (s : Session) (id : UInt32) : Decidable (s.NewId id) :=
  inferInstanceAs (Decidable (_ ∧ _ ∧ _))

instance (name : Nat) (p : Proxy) : (act : ProxyAct) → Decidable (p.Hushes name act)
  | .link .reply => Option.decidableForallMem _
  | .link (.recv _) | .link .lapse | .link .advance | .link (.takeBatch _) | .link .feed
  | .link .writerEnds | .link .readerAborted | .link .release | .link .shutdownClear
  | .link .shutdownAbort => isTrue trivial
  | .tunnel other .proceed =>
    have : Decidable (other = name → ∀ n ∈ (p.tunnels name).stream, p.session.Mute n (p.tunnels name)) :=
      have := @Option.decidableForallMem Nat (fun n => p.session.Mute n (p.tunnels name)) _
        (p.tunnels name).stream
      inferInstanceAs (Decidable (_ → _))
    match phase : (p.tunnels other).phase with
    | .opening (.insert id) => decidable_of_iff (p.session.NewId id) (by simp only [Proxy.Hushes, phase])
    | .closing => decidable_of_iff (other = name → ∀ n ∈ (p.tunnels name).stream,
        p.session.Mute n (p.tunnels name)) (by simp only [Proxy.Hushes, phase])
    | .idle | .opening .reserve | .opening .allocate | .opening (.announce _) | .opening (.giveUp _)
    | .opening .refused | .opening (.opened _) | .greeting _ | .running | .returned =>
      isTrue (by simp only [Proxy.Hushes, phase])
  | .tunnel _ (.begin _) | .tunnel _ (.read _) | .tunnel _ .readEnds | .tunnel _ .uplinkSend
  | .tunnel _ .recv | .tunnel _ .recvEnds | .tunnel _ (.write _) | .tunnel _ .writeFails
  | .tunnel _ .wrote | .tunnel _ .grant | .tunnel _ .shutdownDone | .tunnel _ .leave => isTrue trivial

/-! A stream that has left the map. -/

/-- The link leaves its credit alone. -/
theorem step_credit (valid : Valid s) (stepped : s.step act = some s') (known : n < s.created)
    (gone : s.streams (s.arena n).id ≠ some n) : (s'.arena n).credit = (s.arena n).credit := by
  have evicted (s : Session) (valid : Valid s) (id : UInt32) (gone : s.streams (s.arena n).id ≠ some n) :
      ((s.removeAndClose id).arena n).credit = (s.arena n).credit := by
    unfold Session.removeAndClose
    split
    · rfl
    · rename_i k found
      have other : n ≠ k := by
        rintro rfl
        exact gone ((valid.known found).2 ▸ found)
      rw [Session.closeGate, arena_modify_other _ _ other, arena_remove]
  cases step_move stepped with
  | heard plain frame _ _ _ did =>
    cases did with
    | grants aim _ _ _ found =>
      have other : n ≠ aim := by
        rintro rfl
        exact gone ((valid.known found).2 ▸ found)
      rw [arena_modify_other _ _ other]
    | closes => exact evicted { s with log := s.log ++ [frame] } ⟨valid.known, valid.gate⟩ frame.id gone
    | _ => rfl
  | admits id => exact congrArg Stream.credit (arena_insert s id known)
  | admitsNobody id =>
    have older : n ≠ s.created := Nat.ne_of_lt known
    rw [arena_modify_other _ _ older]
    exact congrArg Stream.credit (arena_insert s id known)
  | delivers id stream body =>
    show ((s.modify stream fun st => { st with inbox := (s.arena stream).inbox.push body }).arena n).credit = _
    exact modify_kept s Stream.credit rfl n
  | evicts id => exact evicted s valid id gone
  | dies => exact congrArg Stream.credit (if_neg gone)
  | replies frame _ did =>
    have arena := enqueue_arena did
    exact congrArg (fun arena => (arena n).credit) arena
  | shutdownClear => exact congrArg Stream.credit (if_neg gone)
  | _ => rfl

/-- The reader finds no inbox that is not in the map. -/
theorem step_offered (valid : Valid s) (stepped : s.step act = some s') (known : n < s.created)
    (gone : s.streams (s.arena n).id ≠ some n) (nothing : s.reader.offered n = []) :
    s'.reader.offered n = [] := by
  cases step_move stepped with
  | heard plain frame _ _ _ did =>
    cases did with
    | data aim _ _ found =>
      refine if_neg ?_
      rintro rfl
      exact gone ((valid.known found).2 ▸ found)
    | closes =>
      rw [(quiet_removeAndClose _ _).reader]
      exact nothing
    | grants => exact nothing
    | ignores => exact nothing
    | _ => rfl
  | takeBatch => exact nothing
  | feed => exact nothing
  | writerEnds => exact nothing
  | release => exact nothing
  | shutdownClear => exact nothing
  | shutdownAbort => exact nothing
  | _ => rfl

/-- A tunnel gives no credit and touches no gate. -/
theorem Move.credit (move : Move s t act s' t') (known : n < s.created) :
    (s'.arena n).credit.closed = (s.arena n).credit.closed ∧
      (s'.arena n).credit.permits ≤ (s.arena n).credit.permits := by
  have dropped (s : Session) (stream : Nat) :
      ((s.hangUp stream).arena n).credit = (s.arena n).credit := modify_kept s Stream.credit rfl n
  have kept {s' : Session} (same : (s'.arena n).credit = (s.arena n).credit) :
      (s'.arena n).credit.closed = (s.arena n).credit.closed ∧
        (s'.arena n).credit.permits ≤ (s.arena n).credit.permits := by
    rw [same]
    exact ⟨rfl, Nat.le_refl _⟩
  have sent {stream : Nat} {stage next : Sending} {s' : Session}
      (did : s.sendStep stream stage = some (s', next)) :
      (s'.arena n).credit.closed = (s.arena n).credit.closed ∧
        (s'.arena n).credit.permits ≤ (s.arena n).credit.permits := by
    cases sendStep_move did with
    | spends =>
      by_cases same : n = stream
      · subst same
        simp [Session.modify]
      · exact kept (congrArg Stream.credit (arena_modify_other s _ same))
    | queues chunk rest queued => exact kept (by rw [enqueue_arena queued])
    | _ => exact kept rfl
  cases move with
  | reserve _ did =>
    obtain ⟨-, same⟩ := Option.ite_none_left_eq_some.mp did
    cases same
    exact kept rfl
  | insert id => exact kept (by rw [arena_insert s id known])
  | announce stream _ did => exact kept (by rw [enqueue_arena did])
  | giveUp stream => exact kept (by rw [dropped, arena_remove])
  | greeting stage next stream _ _ did => exact sent did
  | rejected stage stream _ _ did =>
    rw [dropped]
    exact sent did
  | closed stream _ _ did => exact kept (by rw [dropped, enqueue_arena did])
  | closeFails stream => exact kept (dropped s stream)
  | uplinkSend stage next stream _ _ did => exact sent did
  | recv stream chunk _ _ _ did =>
    obtain ⟨⟨first, inbox⟩, -, same⟩ := Option.map_eq_some_iff.mp did
    cases same
    exact kept (modify_kept s Stream.credit rfl n)
  | grant stream _ _ _ did => exact kept (by rw [enqueue_arena did])
  | leave stream => exact kept (by rw [arena_remove])
  | _ => exact kept rfl

/-- What a stream that has left the map has lost it does not get back. -/
structure Stays (n : Nat) (s s' : Session) : Prop where
  closed : (s.arena n).credit.closed = true → (s'.arena n).credit.closed = true
  gone : s.streams (s.arena n).id ≠ some n → s'.streams (s'.arena n).id ≠ some n
  permits : s.streams (s.arena n).id ≠ some n →
    (s'.arena n).credit.permits ≤ (s.arena n).credit.permits
  offered : s.streams (s.arena n).id ≠ some n → s.reader.offered n = [] →
    s'.reader.offered n = [] ∧ (s'.arena n).backlog ≤ (s.arena n).backlog

theorem step_stays (wired : Wired s) (stepped : s.step act = some s') (known : n < s.created) :
    Stays n s s' := by
  have named := (step_named stepped known).1
  refine ⟨fun closed => ?_, fun gone found => ?_, fun gone => ?_, fun gone nothing => ⟨?_, ?_⟩⟩
  · have gone : s.streams (s.arena n).id ≠ some n := by
      intro found
      rw [wired.valid.gate found] at closed
      cases closed
    rw [step_credit wired.valid stepped known gone]
    exact closed
  · rw [named] at found
    exact gone (step_streams stepped known found)
  · rw [step_credit wired.valid stepped known gone]
  · exact step_offered wired.valid stepped known gone nothing
  · obtain same | ⟨id, body, -, reading, -⟩ := step_inbox stepped known
    · exact Nat.le_of_eq (backlog_congr same)
    · rw [reading] at nothing
      simp [Reader.offered] at nothing

theorem Move.stays (move : Move s t act s' t') (known : n < s.created) : Stays n s s' := by
  have quiet := move.quiet
  obtain ⟨gate, credit⟩ := move.credit known
  refine ⟨fun closed => gate.trans closed, fun gone found => ?_, fun _ => credit,
    fun _ nothing => ⟨quiet.reader ▸ nothing, move.backlog_le known⟩⟩
  rw [quiet.id n known] at found
  exact gone (quiet.streams n known found)

theorem Stays.starved (stays : Stays n s s') (starved : s.Starved n need) : s'.Starved n need := by
  obtain closed | ⟨gone, few⟩ := starved
  · exact .inl (stays.closed closed)
  · exact .inr ⟨stays.gone gone, Nat.lt_of_le_of_lt (stays.permits gone) few⟩

theorem Stays.stuck {stage : Sending} (stays : Stays n s s') (stuck : s.Stuck n stage) : s'.Stuck n stage := by
  cases stage with
  | acquire rest => exact stays.starved stuck
  | queue chunk rest => exact stuck
  | sent => trivial
  | broken => trivial

theorem Stays.spent {uplink : Uplink} (stays : Stays n s s') (spent : s.Spent n uplink) :
    s'.Spent n uplink := by
  cases uplink with
  | off => trivial
  | reading => exact stays.starved spent
  | sending stage => exact stays.stuck spent
  | ended => trivial

theorem Stays.short (stays : Stays n s s') (short : s.Short n owed) : s'.Short n owed := by
  obtain ⟨gone, nothing, few⟩ := short
  obtain ⟨still, fewer⟩ := stays.offered gone nothing
  exact ⟨stays.gone gone, still, by omega⟩

theorem Stays.settles {down : Downlink} (stays : Stays n s s') (settles : s.Settles n pending down) :
    s'.Settles n pending down := by
  cases down with
  | waiting => exact stays.short settles
  | writing rest size => exact stays.short settles
  | granting => exact settles
  | shutting unwritten => trivial
  | ended unwritten => trivial

/-- A tunnel that is mute is so whatever the others do. -/
theorem Stays.mute (stays : Stays n s s') (mute : s.Mute n t) : s'.Mute n t := by
  unfold Session.Mute at mute ⊢
  split at mute
  · exact mute
  · exact mute
  · exact stays.stuck mute
  · exact ⟨stays.spent mute.1, stays.settles mute.2⟩
  · exact stays.spent mute
  · exact stays.spent mute

/-! A mute tunnel. -/

theorem Session.Starved.more {need more : Nat} (starved : s.Starved n need) (le : need ≤ more) :
    s.Starved n more := by
  obtain closed | ⟨gone, few⟩ := starved
  · exact .inl closed
  · exact .inr ⟨gone, Nat.lt_of_lt_of_le few le⟩

/-- A stuck send only fails. -/
private theorem SendMove.stuck {stage next : Sending} (move : SendMove s n stage s' next)
    (stuck : s.Stuck n stage) : s' = s ∧ next = .broken := by
  cases move with
  | spends rest gate enough =>
    obtain closed | ⟨-, few⟩ := stuck
    · rw [gate] at closed
      cases closed
    · omega
  | shut => exact ⟨rfl, rfl⟩
  | queues => exact stuck.elim
  | dead => exact stuck.elim

private theorem mute_spent (fits : t.Fits) (going : t.uplink ≠ .off) (mute : s.Mute n t) :
    s.Spent n t.uplink := by
  have early := fits.early
  unfold Session.Mute at mute
  split at mute
  · exact mute.elim
  · exact mute.elim
  · rename_i phase
    rw [phase] at early
    exact absurd early.1 going
  · exact mute.1
  · exact mute
  · exact mute

/-- The uplink of a mute tunnel goes on its own way. -/
private theorem mute_uplink (stays : Stays n s s') (fits : t.Fits) (going : t.uplink ≠ .off)
    (mute : s.Mute n t) {uplink : Uplink} (reads : Bytes) (goes : s'.Spent n uplink) :
    s'.Mute n { t with uplink, reads } := by
  have early := fits.early
  unfold Session.Mute at mute ⊢
  dsimp only
  split at mute
  · exact mute.elim
  · exact mute.elim
  · rename_i phase
    rw [phase] at early
    exact absurd early.1 going
  · exact ⟨goes, stays.settles mute.2⟩
  · exact goes
  · exact goes

/-- The downlink of a mute tunnel goes on its own way. -/
private theorem mute_downlink (stays : Stays n s s') (running : t.phase = .running) (mute : s.Mute n t)
    {downlink : Downlink} {pending granted : Nat} {writes : Bytes}
    (goes : s.Settles n t.pending t.downlink → s'.Settles n pending downlink) :
    s'.Mute n { t with downlink, pending, writes, granted } := by
  unfold Session.Mute at mute ⊢
  rw [running] at mute
  dsimp only
  rw [running]
  exact ⟨stays.spent mute.1, goes mute.2⟩

/-- A mute tunnel stays mute, and says at most CLOSE. -/
theorem Move.mute (move : Move s t act s' t') (fits : t.Fits) (own : t.stream = some n)
    (known : n < s.created) (mute : s.Mute n t) :
    s'.Mute n t' ∧ (s'.out.accepted = s.out.accepted ∨
      s'.out.accepted = s.out.accepted ++ [.control (s.arena n).id .close]) := by
  have stays := move.stays known
  have early := fits.early
  have mine {stream : Nat} (same : t.stream = some stream) : stream = n :=
    Option.some.inj (same.symm.trans own)
  have unsaid {phase : Phase} (stands : t.phase = phase)
      (before : phase = .idle ∨ ∃ stage, phase = .opening stage) : False := by
    unfold Session.Mute at mute
    rw [stands] at mute
    obtain rfl | ⟨_, rfl⟩ := before
    · exact mute
    · exact mute
  have greets {stage : Sending} (phase : t.phase = .greeting stage) : s.Stuck n stage := by
    unfold Session.Mute at mute
    rwa [phase] at mute
  have closes (phase : t.phase = .closing) : s.Spent n t.uplink := by
    unfold Session.Mute at mute
    rwa [phase] at mute
  cases move with
  | begin head idle => exact (unsaid idle (.inl rfl)).elim
  | reserve phase => exact (unsaid phase (.inr ⟨_, rfl⟩)).elim
  | refused phase => exact (unsaid phase (.inr ⟨_, rfl⟩)).elim
  | allocate phase => exact (unsaid phase (.inr ⟨_, rfl⟩)).elim
  | insert id phase => exact (unsaid phase (.inr ⟨_, rfl⟩)).elim
  | announce stream phase => exact (unsaid phase (.inr ⟨_, rfl⟩)).elim
  | announceFails stream phase => exact (unsaid phase (.inr ⟨_, rfl⟩)).elim
  | giveUp stream phase => exact (unsaid phase (.inr ⟨_, rfl⟩)).elim
  | greeting stage next stream phase owned did kept =>
    obtain rfl := mine owned
    exact absurd ((sendStep_move did).stuck (greets phase)).2 kept
  | rejected stage stream phase owned did =>
    obtain rfl := mine owned
    obtain ⟨rfl, -⟩ := (sendStep_move did).stuck (greets phase)
    rw [phase] at early
    refine ⟨?_, .inl rfl⟩
    show Session.Spent _ _ t.uplink
    rw [early.1]
    trivial
  | closed stream phase owned did =>
    obtain rfl := mine owned
    have more := enqueue_adds did
    exact ⟨stays.spent (closes phase), .inr more⟩
  | closeFails stream phase => exact ⟨stays.spent (closes phase), .inl rfl⟩
  | read bytes reading some =>
    have going : t.uplink ≠ .off := by simp [reading]
    have spent := mute_spent fits going mute
    rw [reading] at spent
    refine ⟨mute_uplink stays fits going mute _ ?_, .inl rfl⟩
    have long : 1 ≤ min bytes.length maxPayload :=
      Nat.le_min.mpr ⟨List.length_pos_iff.mpr some, by decide⟩
    simp only [Sending.next, if_neg some]
    exact spent.more long
  | readEnds reading =>
    exact ⟨mute_uplink stays fits (by simp [reading]) mute _ trivial, .inl rfl⟩
  | uplinkSend stage next stream sending owned did =>
    obtain rfl := mine owned
    have going : t.uplink ≠ .off := by simp [sending]
    have spent := mute_spent fits going mute
    rw [sending] at spent
    obtain ⟨rfl, rfl⟩ := (sendStep_move did).stuck spent
    exact ⟨mute_uplink stays fits going mute _ trivial, .inl rfl⟩
  | recv stream chunk running owned waiting did =>
    obtain rfl := mine owned
    refine ⟨mute_downlink stays running mute fun settles => ?_, .inl (by rw [take_out did])⟩
    rw [waiting] at settles
    obtain ⟨gone, nothing, few⟩ := settles
    have took : (s.arena stream).backlog = chunk.length + (s'.arena stream).backlog := by
      obtain ⟨⟨first, inbox⟩, got, same⟩ := Option.map_eq_some_iff.mp did
      obtain ⟨-, waits, -, -⟩ := Channel.recv_eq_some _ got
      cases same
      simp [Session.modify, Stream.backlog, waits]
    exact ⟨stays.gone gone, (stays.offered gone nothing).1, by omega⟩
  | recvEnds stream running => exact ⟨mute_downlink stays running mute fun _ => trivial, .inl rfl⟩
  | write stream count rest size running _ writing =>
    refine ⟨mute_downlink stays running mute fun settles => ?_, .inl rfl⟩
    rw [writing] at settles
    exact settles
  | writeFails stream rest size running =>
    exact ⟨mute_downlink stays running mute fun _ => trivial, .inl rfl⟩
  | wrote stream size running _ writing =>
    refine ⟨mute_downlink stays running mute fun settles => ?_, .inl rfl⟩
    rw [writing] at settles
    obtain ⟨gone, nothing, few⟩ := settles
    have less := Nat.mod_le (t.pending + size) (2 ^ 32)
    have short : ¬ grantThreshold ≤ (t.pending + size) % 2 ^ 32 := by omega
    simp only [if_neg short]
    exact ⟨gone, nothing, by omega⟩
  | grant stream running _ granting =>
    unfold Session.Mute at mute
    rw [running, granting] at mute
    exact mute.2.elim
  | grantFails stream running _ granting =>
    unfold Session.Mute at mute
    rw [running, granting] at mute
    exact mute.2.elim
  | shutdownDone unwritten running =>
    exact ⟨mute_downlink stays running mute fun _ => trivial, .inl rfl⟩
  | leave stream running =>
    unfold Session.Mute at mute
    rw [running] at mute
    exact ⟨stays.spent mute.1, .inl (by simp)⟩

/-! A tunnel that has not closed its stream. -/

/-- The open has come to an end. -/
def Phase.isPast : Phase → Bool
  | .idle | .opening _ => false
  | .greeting _ | .running | .closing | .returned => true

theorem Move.past (move : Move s t act s' t') (past : t.phase.isPast = true) :
    t'.phase.isPast = true := by
  have opening {stage : Opening} (phase : t.phase = .opening stage) : False := by
    rw [phase] at past
    cases past
  cases move with
  | begin head idle =>
    rw [idle] at past
    cases past
  | reserve phase => exact (opening phase).elim
  | allocate phase => exact (opening phase).elim
  | insert id phase => exact (opening phase).elim
  | announceFails stream phase => exact (opening phase).elim
  | greeting stage next => cases next <;> rfl
  | read => exact past
  | readEnds => exact past
  | uplinkSend => exact past
  | recv => exact past
  | recvEnds => exact past
  | write => exact past
  | writeFails => exact past
  | wrote => exact past
  | grant => exact past
  | grantFails => exact past
  | shutdownDone => exact past
  | _ => rfl

/-- Until it closes the stream, a tunnel sends DATA and WINDOW. -/
theorem Move.talks (move : Move s t act s' t') (own : t.stream = some n)
    (past : t.phase.isPast = true) (still : act = .proceed → t.phase ≠ .closing) :
    Adds (fun frame => frame.id = (s.arena n).id ∧ (frame.kind = .data ∨ frame.kind = .window)) s s' := by
  have mine {stream : Nat} (same : t.stream = some stream) : stream = n :=
    Option.some.inj (same.symm.trans own)
  have opening {stage : Opening} (phase : t.phase = .opening stage) : False := by
    rw [phase] at past
    cases past
  cases move with
  | reserve phase => exact (opening phase).elim
  | announce stream phase => exact (opening phase).elim
  | giveUp stream => exact .nothing (by simp [Session.hangUp, Session.modify])
  | greeting stage next stream _ owned did =>
    obtain rfl := mine owned
    exact (sendStep_move did).adds fun _ => ⟨rfl, .inl rfl⟩
  | rejected stage stream _ owned did =>
    obtain rfl := mine owned
    exact (sendStep_move did).adds fun _ => ⟨rfl, .inl rfl⟩
  | closed stream phase => exact absurd phase (still rfl)
  | uplinkSend stage next stream _ owned did =>
    obtain rfl := mine owned
    exact (sendStep_move did).adds fun _ => ⟨rfl, .inl rfl⟩
  | recv stream chunk _ _ _ did => exact .nothing (by rw [take_out did])
  | grant stream _ owned _ did =>
    obtain rfl := mine owned
    exact .one ⟨rfl, .inr rfl⟩ (enqueue_adds did)
  | leave stream => exact .nothing (by simp)
  | _ => exact .nothing rfl

/-- An open that can announce its stream is through with it. -/
theorem Move.announced (move : Move s t act s' t') (fits : t.Fits) (live : s.out.isOpen = true)
    (phase : t.phase = .opening (.announce n)) : t'.phase.isPast = true := by
  have early := fits.early
  rw [phase] at early
  have busy {uplink : Uplink} (stands : t.uplink = uplink) (going : uplink ≠ .off) : False :=
    going (stands.symm.trans early.1)
  have clash {other : Phase} (stands : t.phase = other) (away : other ≠ .opening (.announce n)) : False :=
    away (stands.symm.trans phase)
  cases move with
  | begin head idle => exact (clash idle nofun).elim
  | reserve stands => exact (clash stands nofun).elim
  | allocate stage => exact (clash stage nofun).elim
  | insert id stage => exact (clash stage nofun).elim
  | announceFails stream _ dead =>
    rw [live] at dead
    cases dead
  | greeting stage next => cases next <;> rfl
  | read bytes reading => exact (busy reading nofun).elim
  | readEnds reading => exact (busy reading nofun).elim
  | uplinkSend stage next stream sending => exact (busy sending nofun).elim
  | recv stream chunk running => exact (clash running nofun).elim
  | recvEnds stream running => exact (clash running nofun).elim
  | write stream count rest size running => exact (clash running nofun).elim
  | writeFails stream rest size running => exact (clash running nofun).elim
  | wrote stream size running => exact (clash running nofun).elim
  | grant stream running => exact (clash running nofun).elim
  | grantFails stream running => exact (clash running nofun).elim
  | shutdownDone unwritten running => exact (clash running nofun).elim
  | _ => rfl

/-- A dead outbox takes nothing and stays dead. -/
theorem step_dead (stepped : s.step act = some s') (dead : s.out.isOpen = false) :
    s'.out.isOpen = false ∧ s'.out.accepted = s.out.accepted := by
  cases step_move stepped with
  | heard plain frame _ _ _ did => exact ⟨did.out ▸ dead, by rw [did.out]⟩
  | evicts id => exact ⟨removeAndClose_out s id ▸ dead, by simp⟩
  | replies frame _ did =>
    obtain ⟨-, live, -⟩ := enqueue_eq did
    rw [dead] at live
    cases live
  | writerEnds => exact ⟨rfl, rfl⟩
  | _ => exact ⟨dead, rfl⟩

theorem Move.dead (move : Move s t act s' t') (dead : s.out.isOpen = false) :
    s'.out.isOpen = false ∧ s'.out.accepted = s.out.accepted := by
  have queued {frame : Frame} {s' : Session} (did : s.enqueue frame = some s') : False := by
    obtain ⟨-, live, -⟩ := enqueue_eq did
    rw [dead] at live
    cases live
  have sent {stream : Nat} {stage next : Sending} {s' : Session}
      (did : s.sendStep stream stage = some (s', next)) :
      s'.out.isOpen = false ∧ s'.out.accepted = s.out.accepted := by
    cases sendStep_move did with
    | queues chunk rest placed => exact (queued placed).elim
    | _ => exact ⟨dead, rfl⟩
  cases move with
  | reserve _ did =>
    obtain ⟨-, same⟩ := Option.ite_none_left_eq_some.mp did
    cases same
    exact ⟨dead, rfl⟩
  | announce stream _ did => exact (queued did).elim
  | giveUp stream => exact ⟨remove_out s _ ▸ dead, by simp [Session.hangUp, Session.modify]⟩
  | greeting stage next stream _ _ did => exact sent did
  | rejected stage stream _ _ did =>
    have kept := sent did
    exact kept
  | closed stream _ _ did => exact (queued did).elim
  | uplinkSend stage next stream _ _ did => exact sent did
  | recv stream chunk _ _ _ did => exact ⟨take_out did ▸ dead, by rw [take_out did]⟩
  | grant stream _ _ _ did => exact (queued did).elim
  | leave stream => exact ⟨remove_out s _ ▸ dead, by simp⟩
  | _ => exact ⟨dead, rfl⟩

/-- Where a stream's frames stand to its tunnel: none is queued and the OPEN is to
come, if at all; or they are in order, and closed only by a mute tunnel. -/
def Session.Ordered (s : Session) (n : Nat) (t : Tunnel) : Prop :=
  (track (s.arena n).id s.out.accepted = [] ∧
    (t.phase = .opening (.announce n) ∨ s.out.isOpen = false)) ∨
  (t.phase.isPast = true ∧ ∃ body closes,
    track (s.arena n).id s.out.accepted = .control (s.arena n).id .opening :: (body ++ closes) ∧
    (∀ frame ∈ body, frame.kind = .data ∨ frame.kind = .window) ∧
    (∀ frame ∈ closes, frame.kind = .close) ∧ (closes ≠ [] → s.Mute n t))

theorem Session.Ordered.orderly (ordered : s.Ordered n t) :
    Orderly (s.arena n).id (track (s.arena n).id s.out.accepted) := by
  obtain ⟨none, -⟩ | ⟨-, body, closes, shape, first, last, -⟩ := ordered
  · exact .inl none
  · exact .inr ⟨body, closes, shape, first, last⟩

/-- Frames of other streams do not matter. -/
private theorem ordered_aside (ordered : s.Ordered n t) (named : (s'.arena n).id = (s.arena n).id)
    (same : track (s.arena n).id s'.out.accepted = track (s.arena n).id s.out.accepted)
    (dead : s.out.isOpen = false → s'.out.isOpen = false) (stays : Stays n s s') : s'.Ordered n t := by
  unfold Session.Ordered
  rw [named, same]
  obtain ⟨none, to_come⟩ | ⟨past, body, closes, shape, first, last, mute⟩ := ordered
  · exact .inl ⟨none, to_come.imp_right dead⟩
  · exact .inr ⟨past, body, closes, shape, first, last, fun closed => stays.mute (mute closed)⟩

/-- A CLOSE goes behind whatever a mute tunnel has sent. -/
private theorem ordered_close (ordered : s.Ordered n t) (named : (s'.arena n).id = (s.arena n).id)
    (live : s.out.isOpen = true) (past : t.phase.isPast = true) (later : t'.phase.isPast = true)
    (more : s'.out.accepted = s.out.accepted ++ [.control (s.arena n).id .close])
    (mute : s'.Mute n t') : s'.Ordered n t' := by
  obtain ⟨-, announces | dead⟩ | ⟨-, body, closes, shape, first, last, -⟩ := ordered
  · rw [announces] at past
    cases past
  · rw [dead] at live
    cases live
  · refine .inr ⟨later, body, closes ++ [.control (s.arena n).id .close], ?_, first, ?_, fun _ => mute⟩
    · rw [named, more, track_append, shape]
      simp [track, Frame.control]
    · intro frame member
      obtain old | new := List.mem_append.mp member
      · exact last frame old
      · rw [List.mem_singleton.mp new]
        rfl

private theorem track_aside {sort : Frame → Prop} {id : UInt32} (adds : Adds sort s s')
    (other : ∀ frame, sort frame → frame.id ≠ id) :
    track id s'.out.accepted = track id s.out.accepted := by
  obtain same | ⟨frame, holds, more⟩ := adds
  · rw [same]
  · rw [more, track_append]
    simp [track, other frame holds]

private theorem control_close {id : UInt32} {r : Reader} (replies : r.replies = some frame)
    (same : frame.id = id) (zero : id ≠ 0) : frame = .control id .close := by
  cases r with
  | echo =>
    cases replies
    exact absurd same.symm zero
  | refuse name n =>
    cases replies
    cases same
    rfl
  | _ => cases replies

theorem Session.Mute.past (mute : s.Mute n t) : t.phase.isPast = true := by
  unfold Session.Mute at mute
  cases phase : t.phase <;> rw [phase] at mute <;> first | rfl | exact mute.elim

/-- A step of the link, with the stream's tunnel mute when `read_loop` sends CLOSE. -/
private theorem ordered_link (wired : Wired s) (known : n < s.created) (zero : (s.arena n).id ≠ 0)
    (hushes : act = .reply → s.reader.replies = some (.control (s.arena n).id .close) → s.Mute n t)
    (ordered : s.Ordered n t) (stepped : s.step act = some s') : s'.Ordered n t := by
  have stays := step_stays wired stepped known
  have named := (step_named stepped known).1
  have dead (dead : s.out.isOpen = false) := (step_dead stepped dead).1
  have aside (same : s'.out.accepted = s.out.accepted) : s'.Ordered n t :=
    ordered_aside ordered named (by rw [same]) dead stays
  cases step_move stepped with
  | heard plain frame _ _ _ did => exact aside (by rw [did.out])
  | evicts id => exact aside (by simp)
  | replies frame reading did =>
    obtain ⟨-, live, -⟩ := enqueue_eq did
    by_cases same : frame.id = (s.arena n).id
    · obtain rfl := control_close reading same zero
      have mute := hushes rfl reading
      have more := enqueue_adds did
      exact ordered_close ordered named live mute.past mute.past more (stays.mute mute)
    · refine ordered_aside ordered named ?_ dead stays
      refine track_aside (step_adds stepped) fun other answers => ?_
      rw [reading] at answers
      cases answers
      exact same
  | _ => exact aside rfl

/-- A step of the stream's own tunnel, mute when it sends CLOSE. -/
private theorem ordered_own (move : Move s t act s' t') (fits : t.Fits) (own : t.stream = some n)
    (known : n < s.created) (hushes : act = .proceed → t.phase = .closing → s.Mute n t)
    (ordered : s.Ordered n t) : s'.Ordered n t' := by
  have stays := move.stays known
  have named : (s'.arena n).id = (s.arena n).id := move.quiet.id n known
  by_cases mute : s.Mute n t
  · obtain ⟨later, same | more⟩ := move.mute fits own known mute
    · have kept := ordered_aside ordered named (by rw [same]) (fun dead => (move.dead dead).1) stays
      obtain ⟨none, announces | dead⟩ | ⟨-, body, closes, shape, first, last, -⟩ := kept
      · have past := mute.past
        rw [announces] at past
        cases past
      · exact .inl ⟨none, .inr dead⟩
      · exact .inr ⟨later.past, body, closes, shape, first, last, fun _ => later⟩
    · have live : s.out.isOpen = true := by
        by_contra dead
        have same := (move.dead (by simpa using dead)).2
        rw [more] at same
        simp at same
      exact ordered_close ordered named live mute.past later.past more later
  · obtain ⟨none, to_come⟩ | ⟨past, body, closes, shape, first, last, closed⟩ := ordered
    · by_cases dead : s.out.isOpen = false
      · obtain ⟨still, same⟩ := move.dead dead
        exact .inl ⟨by rw [named, same, none], .inr still⟩
      · have live : s.out.isOpen = true := by simpa using dead
        have announces := to_come.resolve_right dead
        have more := (move.announces fits live own).2 announces
        refine .inr ⟨move.announced fits live announces, [], [], ?_, nofun, nofun, fun some => absurd rfl some⟩
        rw [named, more, track_append, none]
        simp [track, Frame.control]
    · obtain rfl : closes = [] := by
        by_contra some
        exact mute (closed some)
      refine .inr ⟨move.past past, ?_⟩
      have talks := move.talks own past fun going phase => mute (hushes going phase)
      obtain same | ⟨frame, ⟨mine, kind⟩, more⟩ := talks
      · exact ⟨body, [], by rw [named, same, shape], first, last, fun some => absurd rfl some⟩
      · refine ⟨body ++ [frame], [], ?_, ?_, last, fun some => absurd rfl some⟩
        · rw [named, more, track_append, shape]
          simp [track, mine]
        · intro other member
          obtain old | new := List.mem_append.mp member
          · exact first other old
          · rw [List.mem_singleton.mp new]
            exact kind

/-- What is true of one tunnel's stream on a link where ids are new. -/
structure Proxy.Ordered (name : Nat) (p : Proxy) : Prop where
  sound : p.Sound
  apart : ∀ {one two n k}, (p.tunnels one).stream = some n → (p.tunnels two).stream = some k →
    (p.session.arena n).id = (p.session.arena k).id → n = k
  nonzero : ∀ {n}, (p.tunnels name).stream = some n → (p.session.arena n).id ≠ 0
  ordered : ∀ {n}, (p.tunnels name).stream = some n → p.session.Ordered n (p.tunnels name)

private theorem proxy_ordered_link (ordered : p.Ordered name) (hushes : p.Hushes name (.link act))
    (stepped : p.session.step act = some s') (after : ({ p with session := s' } : Proxy).Sound) :
    ({ p with session := s' } : Proxy).Ordered name := by
  have sound := ordered.sound
  have named {other n : Nat} (own : (p.tunnels other).stream = some n) :
      (s'.arena n).id = (p.session.arena n).id := (step_named stepped (sound.known own)).1
  refine ⟨after, fun first second same => ?_, fun own => ?_, fun own => ?_⟩
  · dsimp only at same
    rw [named first, named second] at same
    exact ordered.apart first second same
  · dsimp only
    rw [named own]
    exact ordered.nonzero own
  · refine ordered_link sound.wired (sound.known own) (ordered.nonzero own) ?_ (ordered.ordered own) stepped
    rintro rfl answers
    exact hushes _ own answers

/-- A tunnel's stream is inserted, or is the one it has had. -/
private theorem move_stream (move : Move s t act s' t') :
    t'.stream = t.stream ∨ ∃ id, act = .proceed ∧ t.phase = .opening (.insert id) ∧ s' = s.insert id ∧
      t' = { t with phase := .opening (.announce s.created), stream := some s.created } := by
  cases move with
  | insert id phase => exact .inr ⟨id, rfl, phase, rfl, rfl⟩
  | greeting stage next => exact .inl (by cases next <;> rfl)
  | _ => exact .inl rfl

private theorem proxy_ordered_move {other : Nat} (ordered : p.Ordered name)
    (hushes : p.Hushes name (.tunnel other act)) (same : t'.stream = (p.tunnels other).stream)
    (move : Move p.session (p.tunnels other) act s' t') : (p.put other s' t').Ordered name := by
  have sound := ordered.sound
  have streams (whose : Nat) : ((p.put other s' t').tunnels whose).stream = (p.tunnels whose).stream := by
    by_cases here : whose = other
    · rw [here, Proxy.put_self, same]
    · rw [Proxy.put_other _ here]
  have named {whose n : Nat} (own : (p.tunnels whose).stream = some n) :
      (s'.arena n).id = (p.session.arena n).id := move.quiet.id n (sound.known own)
  refine ⟨sound.move move, fun first second alike => ?_, fun own => ?_, fun own => ?_⟩
  · rw [streams] at first second
    rw [Proxy.put_session, named first, named second] at alike
    exact ordered.apart first second alike
  · rw [streams] at own
    rw [Proxy.put_session, named own]
    exact ordered.nonzero own
  · rw [streams] at own
    have known := sound.known own
    by_cases here : name = other
    · subst here
      rw [Proxy.put_self]
      refine ordered_own move (sound.fits name) own known ?_ (ordered.ordered own)
      rintro rfl closing
      simp only [Proxy.Hushes, closing] at hushes
      exact hushes trivial _ own
    · rw [Proxy.put_other _ here]
      refine ordered_aside (ordered.ordered own) (named own) ?_ (fun dead => (move.dead dead).1)
        (move.stays known)
      refine track_aside (move.adds (sound.fits other)) ?_
      rintro frame ⟨k, theirs, about, -⟩ alike
      have shared := ordered.apart own theirs (alike.symm.trans about)
      exact here (sound.apart own (shared ▸ theirs))

/-- A new stream has no frames yet. -/
private theorem proxy_ordered_insert {other : Nat} {id : UInt32} (ordered : p.Ordered name)
    (fresh : p.session.NewId id) (phase : (p.tunnels other).phase = .opening (.insert id)) :
    (p.put other (p.session.insert id) { p.tunnels other with
      phase := .opening (.announce p.session.created), stream := some p.session.created }).Ordered name := by
  have sound := ordered.sound
  obtain ⟨zero, unused, uncarried⟩ := fresh
  have new : ((p.session.insert id).arena p.session.created).id = id := by simp [Session.insert]
  have named {stage n : Nat} (own : (p.tunnels stage).stream = some n) :
      ((p.session.insert id).arena n).id = (p.session.arena n).id := by
    rw [arena_insert p.session id (sound.known own)]
  have other_id {stage n : Nat} (own : (p.tunnels stage).stream = some n) :
      (p.session.arena n).id ≠ id := unused n (sound.known own)
  have streams {stage n : Nat} (own : ((p.put other (p.session.insert id) { p.tunnels other with
        phase := .opening (.announce p.session.created),
        stream := some p.session.created }).tunnels stage).stream = some n) :
      (stage = other ∧ n = p.session.created) ∨ (stage ≠ other ∧ (p.tunnels stage).stream = some n) := by
    by_cases here : stage = other
    · rw [here, Proxy.put_self] at own
      exact .inl ⟨here, (Option.some.inj own).symm⟩
    · rw [Proxy.put_other _ here] at own
      exact .inr ⟨here, own⟩
  refine ⟨sound.move (.insert id phase), fun first second alike => ?_, fun own => ?_, fun own => ?_⟩
  · rw [Proxy.put_session] at alike
    obtain ⟨-, rfl⟩ | ⟨-, one⟩ := streams first <;> obtain ⟨-, rfl⟩ | ⟨-, two⟩ := streams second
    · rfl
    · rw [new, named two] at alike
      exact absurd alike.symm (other_id two)
    · rw [new, named one] at alike
      exact absurd alike (other_id one)
    · rw [named one, named two] at alike
      exact ordered.apart one two alike
  · rw [Proxy.put_session]
    obtain ⟨-, rfl⟩ | ⟨-, one⟩ := streams own
    · rw [new]
      exact zero
    · rw [named one]
      exact ordered.nonzero one
  · obtain ⟨rfl, rfl⟩ | ⟨here, one⟩ := streams own
    · rw [Proxy.put_self, Proxy.put_session]
      refine .inl ⟨?_, .inl rfl⟩
      rw [new]
      exact List.filter_eq_nil_iff.mpr fun frame member => by simpa using uncarried frame member
    · rw [Proxy.put_other _ here, Proxy.put_session]
      exact ordered_aside (ordered.ordered one) (named one) rfl (fun dead => dead)
        ((Move.insert id phase).stays (sound.known one))

theorem Proxy.Ordered.step (ordered : p.Ordered name) (hushes : p.Hushes name act)
    (stepped : p.step act = some next) : next.Ordered name := by
  cases act with
  | link act =>
    obtain ⟨session, did, rfl⟩ := Option.map_eq_some_iff.mp stepped
    exact proxy_ordered_link ordered hushes did (ordered.sound.step stepped)
  | tunnel other act =>
    obtain ⟨⟨session, tunnel⟩, did, rfl⟩ := Option.map_eq_some_iff.mp stepped
    have move := tunnelStep_move did
    obtain same | ⟨id, rfl, phase, rfl, rfl⟩ := move_stream move
    · exact proxy_ordered_move ordered hushes same move
    · simp only [Proxy.Hushes, phase] at hushes
      exact proxy_ordered_insert ordered hushes phase

theorem Proxy.Ordered.start (maxStreams name : Nat) : (Proxy.start maxStreams).Ordered name :=
  ⟨.start maxStreams, nofun, nofun, nofun⟩

/-- Every stream's frames are in order as long as, whenever a CLOSE for it is
queued, by `tx.close()` or by `read_loop`, its tunnel has nothing else to send. -/
theorem frames_follow_the_grammar (maxStreams name : Nat) (actions : List ProxyAct) {p : Proxy}
    (ran : run Proxy.step (.start maxStreams) actions = some p)
    (hushed : Meets Proxy.step (Proxy.Hushes name) (.start maxStreams) actions) {n : Nat}
    (own : (p.tunnels name).stream = some n) :
    Orderly (p.session.arena n).id (track (p.session.arena n).id p.session.out.accepted) := by
  have ordered := run_preserves_where (Proxy.Ordered name)
    (fun _ _ _ ordered hushes stepped => ordered.step hushes stepped) (.start maxStreams name) hushed ran
  exact (ordered.ordered own).orderly

/-- The client says something, and the bridge closes; then the downlink is through,
and the uplink finds the gate closed. -/
private def gated : List ProxyAct :=
  [.tunnel 0 (.begin (List.replicate 37 0)), .tunnel 0 .proceed, .tunnel 0 .proceed,
    .tunnel 0 .proceed, .tunnel 0 .proceed, .tunnel 0 .proceed, .tunnel 0 .proceed,
    .tunnel 0 (.read [9]), .link (.recv [0, 0, 0, 1, 2, 0, 0, 0]), .tunnel 0 .recvEnds,
    .tunnel 0 .shutdownDone, .tunnel 0 .leave, .tunnel 0 .proceed, .tunnel 0 .uplinkSend]

theorem frames_follow_the_grammar_gated :
    ∃ p, run Proxy.step (.start 1) gated = some p ∧
      track 1 p.session.out.accepted ≠ [] ∧ Orderly 1 (track 1 p.session.out.accepted) := by
  have checked : ((run Proxy.step (.start 1) gated).any fun p =>
      (p.tunnels 0).stream = some 0 ∧ (p.session.arena 0).id = 1 ∧
        track 1 p.session.out.accepted ≠ []) = true := by decide +kernel
  have hushed : Meets Proxy.step (Proxy.Hushes 0) (.start 1) gated := by decide +kernel
  obtain ⟨p, ran, ends⟩ := run_reaches checked
  obtain ⟨own, named, some⟩ := ends
  have orderly := frames_follow_the_grammar 1 0 gated ran hushed own
  rw [named] at orderly
  exact ⟨p, ran, some, orderly⟩

/-- The client's one frame carries its preamble and the byte 9 behind it, which
`read_exact` leaves in the stream. Before the spawned uplink gets to it the bridge
sends a byte, the socket takes no more writes, and `serve_client` returns through
`tx.close()`. -/
private def detached : List SpliceAct :=
  [.client 0 (.arrive ([0x82, 0x80 + 38, 0, 0, 0, 0] ++ magicClient ++ [version] ++
      List.replicate 32 5 ++ [9])),
    .client 0 .preamble, .client 0 .serve, .tunnel 0 .proceed, .tunnel 0 .proceed, .tunnel 0 .proceed,
    .tunnel 0 .proceed, .tunnel 0 .proceed, .tunnel 0 .proceed,
    .link (.recv [0, 0, 0, 1, 1, 0, 1, 0, 7]), .link .advance, .tunnel 0 .recv,
    .client 0 (.writable [.fail ⟨.brokenPipe, "broken pipe"⟩, .fail ⟨.brokenPipe, "broken pipe"⟩]),
    .client 0 .write, .client 0 (.shutdown .done), .tunnel 0 .leave, .tunnel 0 .proceed,
    .client 0 (.read 16384), .tunnel 0 .uplinkSend, .tunnel 0 .uplinkSend]

/-- The detached uplink finds the byte in a stream that is shut down already, and
sends it behind the CLOSE. -/
theorem data_follows_close :
    ∃ e, run Splice.step (.start 1) detached = some e ∧ (e.proxy.tunnels 0).stream = some 0 ∧
      ¬ Orderly (e.proxy.session.arena 0).id
        (track (e.proxy.session.arena 0).id e.proxy.session.out.accepted) := by
  have checked : ((run Splice.step (.start 1) detached).any fun e =>
      (e.proxy.tunnels 0).stream = some 0 ∧
      track (e.proxy.session.arena 0).id e.proxy.session.out.accepted =
        [.control 1 .opening, ⟨1, .data, magicClient ++ [version] ++ List.replicate 32 5⟩] ++
          Frame.control 1 .close :: [⟨1, .data, [9]⟩]) = true := by decide +kernel
  obtain ⟨e, ran, ends⟩ := run_reaches checked
  obtain ⟨own, frames⟩ := ends
  refine ⟨e, ran, own, fun orderly => ?_⟩
  rw [frames] at orderly
  have last := orderly.after_close rfl ⟨1, .data, [9]⟩ (by simp)
  cases last

end DshProxy.Mux

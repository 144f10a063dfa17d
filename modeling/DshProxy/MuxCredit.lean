import DshProxy.MuxView

/-! Downlink credit. The sender's permits, the bytes it has spent them on and the
amounts on their way back add up to the window: one ledger for the sending
session, one for the tunnel, and the link between them. -/
namespace DshProxy.Mux
open Sync Wire ByteOrder Transitions

/-- DATA bytes on an id among the frames. -/
def dataBytes (id : UInt32) (frames : List Frame) : Nat := (dataOn id frames).flatten.length

/-- What a frame adds to the credit of an id. -/
def Frame.grants (frame : Frame) (id : UInt32) : Nat :=
  if frame.id = id ∧ frame.kind = .window ∧ frame.payload.length = 4 then ofBe frame.payload else 0

/-- Credit on its way back to an id among the frames. -/
def grantsOn (id : UInt32) (frames : List Frame) : Nat := (frames.map (·.grants id)).sum

/-- Bytes whose credit is spent and that wait for a place in the outbox. -/
def Sending.inHand : Sending → Nat
  | .queue chunk _ => chunk.length
  | _ => 0

/-- The size of the chunk being written. -/
def Downlink.inHand : Downlink → Nat
  | .writing _ size => size
  | _ => 0

variable {s s' : Session} {t t' : Tunnel} {p : Pair} {id : UInt32}

theorem dataBytes_append (id : UInt32) (first second : List Frame) :
    dataBytes id (first ++ second) = dataBytes id first + dataBytes id second := by
  simp [dataBytes, dataOn_append]

theorem grantsOn_append (id : UInt32) (first second : List Frame) :
    grantsOn id (first ++ second) = grantsOn id first + grantsOn id second := by
  simp [grantsOn]

@[simp] theorem grantsOn_singleton (id : UInt32) (frame : Frame) :
    grantsOn id [frame] = frame.grants id := by
  simp [grantsOn]

theorem dataBytes_singleton (id : UInt32) (frame : Frame) :
    dataBytes id [frame] = if frame.id = id ∧ frame.kind = .data then frame.payload.length else 0 := by
  rw [dataBytes, dataOn_singleton]
  split <;> simp

theorem dataBytes_of_silent {frames : List Frame} (silent : track id frames = []) :
    dataBytes id frames = 0 := by
  have none : dataOn id frames = [] := by
    rw [dataOn, List.filterMap_eq_nil_iff]
    intro frame member
    have other : frame.id ≠ id := fun about => track_ne_nil.mpr ⟨frame, member, about⟩ silent
    simp [other]
  simp [dataBytes, none]

theorem grantsOn_of_aside {frames : List Frame}
    (aside : ∀ frame ∈ frames, frame.id = id → frame.kind ≠ .window) : grantsOn id frames = 0 := by
  rw [grantsOn, List.sum_eq_zero_iff_forall_eq_nat]
  intro amount member
  obtain ⟨frame, among, rfl⟩ := List.mem_map.mp member
  rw [Frame.grants, if_neg]
  rintro ⟨about, kind, -⟩
  exact aside frame among about kind

theorem grantsOn_of_silent {frames : List Frame} (silent : track id frames = []) :
    grantsOn id frames = 0 :=
  grantsOn_of_aside fun frame member about => absurd silent (track_ne_nil.mpr ⟨frame, member, about⟩)

theorem grant_grants (id : UInt32) {bytes : Nat} (low : bytes < 2 ^ 32) :
    (Frame.grant id bytes).grants id = bytes := by
  simp only [Frame.grants, Frame.grant, toBe_length, and_self, if_true]
  exact ofBe_toBe 4 bytes (by simpa using low)

/-- The sender's books: its permits, what it holds and what it has sent are the
window and what it has been given. -/
structure Acceptor.Balanced (a : Acceptor) (id : UInt32) : Prop where
  fresh : ∀ n, a.session.created ≤ n → a.sending n = .sent
  balance : ∀ n, a.session.streams id = some n →
    (a.session.arena n).credit.permits + (a.sending n).inHand +
      dataBytes id a.session.out.accepted = window + grantsOn id a.session.log

/-- A step that leaves the books of the stream alone. -/
theorem Acceptor.Balanced.of_eq {a b : Acceptor} (balanced : a.Balanced id)
    (created : a.session.created ≤ b.session.created) (sending : b.sending = a.sending)
    (streams : ∀ n, b.session.streams id = some n → a.session.streams id = some n)
    (permits : ∀ n, a.session.streams id = some n →
      (b.session.arena n).credit.permits = (a.session.arena n).credit.permits)
    (out : dataBytes id b.session.out.accepted = dataBytes id a.session.out.accepted)
    (log : grantsOn id b.session.log = grantsOn id a.session.log) : b.Balanced id := by
  refine ⟨fun n new => ?_, fun n found => ?_⟩
  · rw [sending]
    exact balanced.fresh n (Nat.le_trans created new)
  · rw [permits n (streams n found), sending, out, log]
    exact balanced.balance n (streams n found)

theorem credit_removeAndClose (s : Session) (other : UInt32) (n : Nat) :
    ((s.removeAndClose other).arena n).credit.permits = (s.arena n).credit.permits := by
  unfold Session.removeAndClose
  split
  · rfl
  · rename_i stream _
    by_cases same : n = stream
    · subst same
      simp [Session.closeGate, Session.modify]
    · simp [Session.closeGate, Session.modify, same]

theorem removeAndClose_found {other : UInt32}
    (found : (s.removeAndClose other).streams id = some n) : s.streams id = some n := by
  rw [removeAndClose_streams] at found
  split at found
  · cases found
  · exact found

theorem permits_modify (s : Session) (aim : Nat) (change : Stream → Stream) (n : Nat)
    (kept : (change (s.arena aim)).credit = (s.arena aim).credit) :
    ((s.modify aim change).arena n).credit.permits = (s.arena n).credit.permits :=
  congrArg Semaphore.permits (modify_kept s Stream.credit kept n)

private theorem balanced_reader {a : Acceptor} (balanced : a.Balanced id) (r : Reader) :
    ({ a with session := { a.session with reader := r } } : Acceptor).Balanced id :=
  balanced.of_eq (Nat.le_refl _) rfl (fun _ found => found) (fun _ _ => rfl) rfl rfl

/-- A stream that is admitted starts with the window, and nobody has spent or
granted any of it. -/
private theorem balanced_admits {a : Acceptor} (balanced : a.Balanced id) (wired : Wired a.session)
    (learnt : a.session.Learnt id) (opens : Opens (track id a.session.log)) {new : UInt32}
    (reading : a.session.reader = .accepting new) (created : s'.created = a.session.created + 1)
    (streams : s'.streams = (a.session.insert new).streams)
    (permits : ∀ n, (s'.arena n).credit = ((a.session.insert new).arena n).credit)
    (out : s'.out = a.session.out) (log : s'.log = a.session.log) :
    ({ a with session := s' } : Acceptor).Balanced id := by
  refine ⟨fun n above => balanced.fresh n (by dsimp only at above; omega), fun n found => ?_⟩
  dsimp only at found ⊢
  rw [streams] at found
  rw [permits, out, log]
  by_cases same : id = new
  · subst same
    obtain rfl : a.session.created = n := by simpa [Session.insert] using found
    obtain ⟨-, silent, once⟩ := learnt.admits reading
    have first : ∀ frame ∈ a.session.log, frame.id = id → frame.kind ≠ .window := by
      intro frame member about kind
      obtain ⟨only, shape⟩ := List.length_eq_one_iff.mp once
      have among : frame ∈ track id a.session.log :=
        List.mem_filter.mpr ⟨member, by simpa using about⟩
      rw [shape] at among opens
      obtain rfl := List.mem_singleton.mp among
      cases kind.symm.trans opens.1
    rw [dataBytes_of_silent silent, grantsOn_of_aside first, balanced.fresh _ (Nat.le_refl _)]
    simp [Session.insert, Sending.inHand]
  · have before : a.session.streams id = some n := by simpa [Session.insert, same] using found
    have known := (wired.valid.known before).1
    rw [arena_insert _ new known]
    exact balanced.balance n before

theorem balanced_link {a : Acceptor} (balanced : a.Balanced id) (wired : Wired a.session)
    (live : Live a.session) (learnt : a.session.Learnt id) (opens : Opens (track id a.session.log))
    (stream : id ≠ 0) (stepped : a.session.step act = some s') (tasks : act.isLive = true) :
    ({ a with session := s' } : Acceptor).Balanced id := by
  have alive := live.reader
  have opened := live.opened
  cases step_move stepped with
  | admits new reading =>
    exact balanced_admits balanced wired learnt opens reading rfl rfl (fun _ => rfl) rfl rfl
  | admitsNobody new reading =>
    refine balanced_admits balanced wired learnt opens reading rfl rfl (fun n => ?_) rfl rfl
    exact modify_kept { a.session.insert new with reader := .idle } Stream.credit rfl n
  | delivers other aim body =>
    exact balanced.of_eq (Nat.le_refl _) rfl (fun _ found => found)
      (fun n _ => permits_modify _ aim (fun st => { st with
        inbox := (a.session.arena aim).inbox.push body }) n rfl) rfl rfl
  | drops => exact balanced_reader balanced _
  | overflows => exact balanced_reader balanced _
  | evicts other =>
    refine balanced.of_eq (Nat.le_of_eq (removeAndClose_created _ other).symm) rfl
      (fun n found => removeAndClose_found found) (fun n _ => credit_removeAndClose _ other n) ?_ ?_
    · simp
    · exact congrArg (grantsOn id) (quiet_removeAndClose _ other).log
  | dies reading =>
    rw [reading] at alive
    cases alive
  | ends reading =>
    rw [reading] at alive
    cases alive
  | replies frame replies did =>
    have more := enqueue_adds did
    have alike := alike_enqueue did
    have nothing : dataBytes id [frame] = 0 := by
      rw [dataBytes_singleton, if_neg]
      rintro ⟨about, kind⟩
      cases reading : a.session.reader with
      | echo =>
        rw [reading] at replies
        cases replies
        exact stream about.symm
      | refuse other n =>
        rw [reading] at replies
        cases replies
        cases kind
      | _ =>
        rw [reading] at replies
        cases replies
    refine balanced.of_eq (Nat.le_of_eq alike.created.symm) rfl (fun n found => ?_) (fun n _ => ?_) ?_ ?_
    · exact alike.streams ▸ found
    · exact congrArg (fun arena => (arena n).credit.permits) (enqueue_arena did)
    · dsimp only
      rw [more, dataBytes_append, nothing, Nat.add_zero]
    · exact congrArg (grantsOn id) (quiet_enqueue did).log
  | replyFails _ _ dead =>
    rw [dead] at opened
    cases opened
  | takeBatch => exact balanced.of_eq (Nat.le_refl _) rfl (fun _ found => found) (fun _ _ => rfl) rfl rfl
  | feed => exact balanced.of_eq (Nat.le_refl _) rfl (fun _ found => found) (fun _ _ => rfl) rfl rfl
  | release => exact balanced.of_eq (Nat.le_refl _) rfl (fun _ found => found) (fun _ _ => rfl) rfl rfl
  | _ => cases tasks

theorem balanced_heard {a : Acceptor} (balanced : a.Balanced id) (valid : Valid a.session)
    (stream : id ≠ 0) (did : Heard a.session frame s') :
    ({ a with session := s' } : Acceptor).Balanced id := by
  have log := did.log
  have out := did.out
  -- a frame that gives this stream nothing
  have idle (streams : ∀ n, s'.streams id = some n → a.session.streams id = some n)
      (permits : ∀ n, a.session.streams id = some n →
        (s'.arena n).credit.permits = (a.session.arena n).credit.permits)
      (nothing : ∀ n, s'.streams id = some n → frame.grants id = 0) :
      ({ a with session := s' } : Acceptor).Balanced id := by
    refine ⟨fun n above => balanced.fresh n (by rw [← did.created]; exact above), fun n found => ?_⟩
    dsimp only at found ⊢
    rw [permits n (streams n found), out, log, grantsOn_append, grantsOn_singleton, nothing n found]
    exact balanced.balance n (streams n found)
  have aside (kind : frame.kind ≠ .window) : frame.grants id = 0 := by
    rw [Frame.grants, if_neg]
    exact fun window => kind window.2.1
  cases did with
  | keepalive zero =>
    refine idle (fun _ found => found) (fun _ _ => rfl) fun _ _ => ?_
    rw [Frame.grants, if_neg]
    exact fun about => stream (about.1.symm.trans zero)
  | opens _ kind => exact idle (fun _ found => found) (fun _ _ => rfl) fun _ _ => aside (by simp [kind])
  | overBudget _ kind =>
    exact idle (fun _ found => found) (fun _ _ => rfl) fun _ _ => aside (by simp [kind])
  | data _ _ kind => exact idle (fun _ found => found) (fun _ _ => rfl) fun _ _ => aside (by simp [kind])
  | grants aim _ kind four aimed =>
    by_cases about : frame.id = id
    · refine ⟨balanced.fresh, fun n found => ?_⟩
      obtain rfl : aim = n := Option.some.inj (aimed.symm.trans (about ▸ found))
      have before := balanced.balance aim found
      have amount : frame.grants id = ofBe frame.payload := by
        rw [Frame.grants, if_pos ⟨about, kind, four⟩]
      simp only [Session.modify, Function.update_self, Semaphore.addPermits_permits, grantsOn_append,
        grantsOn_singleton, amount] at before ⊢
      omega
    · refine idle (fun _ found => found) (fun n found => ?_) fun _ _ => ?_
      · have other : n ≠ aim := by
          rintro rfl
          exact about ((valid.known aimed).2.symm.trans (valid.known found).2)
        simp [Session.modify, other]
      · rw [Frame.grants, if_neg]
        exact fun named => about named.1
  | closes _ kind =>
    refine idle (fun n found => ?_) (fun n _ => ?_) fun _ _ => aside (by simp [kind])
    · have before := removeAndClose_found found
      exact before
    · exact credit_removeAndClose _ frame.id n
  | ignores _ nothing =>
    refine idle (fun _ found => found) (fun _ _ => rfl) fun n found => ?_
    rw [Frame.grants, if_neg]
    rintro ⟨about, kind, four⟩
    rw [Session.Ignores, kind] at nothing
    obtain short | absent := nothing
    · exact short four
    · rw [about, show a.session.streams id = some n from found] at absent
      cases absent

private theorem inHand_over {stage : Sending} (finished : stage.isOver = true) : stage.inHand = 0 := by
  cases stage <;> first
    | rfl
    | cases finished

private theorem inHand_next (data : Bytes) : (Sending.next data).inHand = 0 := by
  unfold Sending.next
  split <;> rfl

/-- A piece of a send moves bytes from the permits to the hand, or from the hand
to the outbox. -/
theorem SendMove.balance (move : SendMove s n stage s' next) (live : Live s)
    (about : (s.arena n).id = id) :
    (s'.arena n).credit.permits + next.inHand + dataBytes id s'.out.accepted =
      (s.arena n).credit.permits + stage.inHand + dataBytes id s.out.accepted := by
  cases move with
  | spends rest gate enough =>
    simp only [Session.modify, Function.update_self, Sending.inHand, List.length_take]
    rw [Nat.min_comm maxPayload]
    omega
  | shut rest => rfl
  | queues chunk rest did =>
    rw [enqueue_adds did, dataBytes_append, dataBytes_singleton, if_pos ⟨about, rfl⟩, inHand_next,
      enqueue_arena did]
    simp only [Sending.inHand]
    omega
  | dead chunk rest gone =>
    have opened := live.opened
    rw [gone] at opened
    cases opened

/-- It leaves the other streams alone. -/
theorem SendMove.elsewhere (move : SendMove s n stage s' next) (other : k ≠ n) :
    (s'.arena k).credit = (s.arena k).credit := by
  cases move with
  | spends => simp [Session.modify, other]
  | queues chunk rest did => rw [enqueue_arena did]
  | _ => rfl

theorem SendMove.dataBytes_other (move : SendMove s n stage s' next) (other : (s.arena n).id ≠ id) :
    dataBytes id s'.out.accepted = dataBytes id s.out.accepted := by
  cases move with
  | queues chunk rest did =>
    rw [enqueue_adds did, dataBytes_append, dataBytes_singleton, if_neg fun about => other about.1,
      Nat.add_zero]
  | _ => rfl

theorem closeStream_gone (closed : s.closeStream n sent = some s') :
    s'.streams (s.arena n).id = none := by
  obtain ⟨-, queued⟩ | ⟨-, rfl⟩ := closeStream_cases closed
  · rw [(alike_enqueue queued).streams]
    exact removeAndClose_absent s _
  · exact removeAndClose_absent s _

/-- `close_stream` leaves the books of the streams it does not close alone. -/
theorem closeStream_books (id : UInt32) (closed : s.closeStream k sent = some s') :
    (∀ {n}, s'.streams id = some n → s.streams id = some n) ∧
      (∀ n, (s'.arena n).credit.permits = (s.arena n).credit.permits) ∧
      dataBytes id s'.out.accepted = dataBytes id s.out.accepted := by
  obtain ⟨-, queued⟩ | ⟨-, rfl⟩ := closeStream_cases closed
  · refine ⟨fun found => ?_, fun n => ?_, ?_⟩
    · rw [(alike_enqueue queued).streams] at found
      exact removeAndClose_found found
    · rw [enqueue_arena queued]
      exact credit_removeAndClose s _ n
    · rw [enqueue_adds queued, dataBytes_append, dataBytes_singleton,
        if_neg (by simp [Frame.control]), removeAndClose_out, Nat.add_zero]
  · exact ⟨removeAndClose_found, credit_removeAndClose s _, by rw [removeAndClose_out]⟩

theorem balanced_close {a : Acceptor} (balanced : a.Balanced id)
    (closed : a.session.closeStream k sent = some s') :
    ({ a with session := s' } : Acceptor).Balanced id := by
  obtain ⟨found, permits, out⟩ := closeStream_books id closed
  have extended := extends_closeStream closed
  refine balanced.of_eq ?_ rfl (fun n has => found has) (fun n _ => permits n) out
    (congrArg (grantsOn id) extended.log)
  obtain ⟨-, queued⟩ | ⟨-, rfl⟩ := closeStream_cases closed
  · exact Nat.le_of_eq ((alike_enqueue queued).created.trans (removeAndClose_created _ _)).symm
  · exact Nat.le_of_eq (removeAndClose_created _ _).symm

/-- A send of a stream that is not in the map is given up. -/
theorem Acceptor.Balanced.forget {a : Acceptor} (balanced : a.Balanced id)
    (gone : a.session.streams id ≠ some k) :
    ({ a with sending := Function.update a.sending k .sent } : Acceptor).Balanced id := by
  refine ⟨fun n above => ?_, fun n found => ?_⟩
  · dsimp only
    rw [Function.update_apply]
    split
    · rfl
    · exact balanced.fresh n above
  · have away : n ≠ k := by
      rintro rfl
      exact gone found
    dsimp only
    rw [Function.update_of_ne away]
    exact balanced.balance n found

theorem balanced_user {a b : Acceptor} (balanced : a.Balanced id) (wired : Wired a.session)
    (live : Live a.session) (learnt : a.session.Learnt id) (move : AcceptorMove a act b) :
    b.Balanced id := by
  obtain ⟨quiet, created⟩ := move.quiet
  -- of two streams only one has the id
  have mine {n k : Nat} (found : a.session.streams id = some n) (known : k < a.session.created)
      (about : (a.session.arena k).id = id) : k = n := by
    obtain ⟨present, named⟩ := wired.valid.known found
    exact learnt.sole k n known present about named
  cases move with
  | send k data known finished =>
    refine ⟨fun n above => ?_, fun n found => ?_⟩
    · dsimp only at above ⊢
      rw [Function.update_of_ne (by omega)]
      exact balanced.fresh n above
    · have before := balanced.balance n found
      by_cases same : n = k
      · subst same
        rw [inHand_over finished] at before
        simpa [inHand_next] using before
      · simpa [same] using before
  | proceed k next known did =>
    refine ⟨fun n above => ?_, fun n found => ?_⟩
    · dsimp only at above created ⊢
      rw [Function.update_of_ne (by omega)]
      exact balanced.fresh n (created ▸ above)
    · dsimp only at found ⊢
      rw [did.streams] at found
      have before := balanced.balance n found
      rw [quiet.log]
      by_cases same : n = k
      · subst same
        rw [Function.update_self, did.balance live (wired.valid.known found).2]
        exact before
      · have other : (a.session.arena k).id ≠ id := fun about => same (mine found known about).symm
        rw [Function.update_of_ne same, did.elsewhere same, did.dataBytes_other other]
        exact before
  | recv k chunk known did =>
    refine balanced.of_eq (Nat.le_of_eq created.symm) rfl (fun n found => ?_) (fun n _ => ?_) ?_ ?_
    · exact (alike_take did).streams ▸ found
    · obtain ⟨⟨first, inbox⟩, -, same⟩ := Option.map_eq_some_iff.mp did
      cases same
      exact permits_modify _ k (fun st => { st with inbox }) n rfl
    · rw [show _ = _ from take_out did]
    · exact congrArg (grantsOn id) quiet.log
  | grants k bytes known did =>
    refine balanced.of_eq (Nat.le_of_eq created.symm) rfl (fun n found => ?_) (fun n _ => ?_) ?_ ?_
    · exact (alike_enqueue did).streams ▸ found
    · exact congrArg (fun arena => (arena n).credit.permits) (enqueue_arena did)
    · dsimp only
      rw [enqueue_adds did, dataBytes_append, dataBytes_singleton, if_neg (by simp [Frame.grant]),
        Nat.add_zero]
    · exact congrArg (grantsOn id) quiet.log
  | owes => exact balanced
  | shutdown k sent known did => exact balanced_close balanced did
  | drop k sent known did =>
    have closed := balanced_close balanced did
    have hung : ({ a with session := (_ : Session).hangUp k } : Acceptor).Balanced id :=
      closed.of_eq (Nat.le_refl _) rfl (fun _ found => found)
        (fun n _ => permits_modify _ k (fun st => { st with inbox := st.inbox.close }) n rfl) rfl rfl
    refine hung.forget fun found => ?_
    have gone := closeStream_gone did
    have before := (closeStream_books _ did).1 found
    rw [(wired.valid.known before).2] at gone
    cases gone.symm.trans found

/-- What a step of a tunnel does to the credit on its way back. -/
theorem Move.grants (move : Move s t act s' t') :
    (t'.granted = t.granted ∧ ∀ id, grantsOn id s'.out.accepted = grantsOn id s.out.accepted) ∨
      ∃ n, t.stream = some n ∧ t.downlink = .granting ∧ t'.granted = t.granted + t.pending ∧
        s'.out.accepted = s.out.accepted ++ [.grant (s.arena n).id t.pending] := by
  have aside {frame : Frame} {s' : Session} (kind : frame.kind ≠ .window)
      (more : s'.out.accepted = s.out.accepted ++ [frame]) (id : UInt32) :
      grantsOn id s'.out.accepted = grantsOn id s.out.accepted := by
    rw [more, grantsOn_append, grantsOn_singleton, Frame.grants, if_neg fun named => kind named.2.1,
      Nat.add_zero]
  have sends {n : Nat} {stage next : Sending} {s' : Session}
      (did : s.sendStep n stage = some (s', next)) (id : UInt32) :
      grantsOn id s'.out.accepted = grantsOn id s.out.accepted := by
    cases sendStep_move did with
    | queues chunk rest queued => exact aside (by simp) (enqueue_adds queued) id
    | _ => rfl
  cases move with
  | reserve _ did =>
    obtain ⟨-, same⟩ := Option.ite_none_left_eq_some.mp did
    cases same
    exact .inl ⟨rfl, fun _ => rfl⟩
  | announce n _ did => exact .inl ⟨rfl, aside (by simp [Frame.control]) (enqueue_adds did)⟩
  | giveUp n => exact .inl ⟨rfl, fun id => by simp [Session.hangUp, Session.modify]⟩
  | greeting stage next n _ _ did => exact .inl ⟨by cases next <;> rfl, sends did⟩
  | rejected stage n _ _ did =>
    have same := sends did
    exact .inl ⟨rfl, same⟩
  | closed n _ _ did =>
    have more := enqueue_adds did
    exact .inl ⟨rfl, aside (by simp [Frame.control]) more⟩
  | uplinkSend stage next n _ _ did => exact .inl ⟨rfl, sends did⟩
  | recv n chunk _ _ _ did => exact .inl ⟨rfl, fun id => by rw [take_out did]⟩
  | grant n _ own granting did => exact .inr ⟨n, own, granting, rfl, enqueue_adds did⟩
  | leave n => exact .inl ⟨rfl, fun id => by simp⟩
  | _ => exact .inl ⟨rfl, fun _ => rfl⟩

/-- What a tunnel about to give credit back gives fits the counter and the
frame. -/
theorem Proxy.Sound.pending_low {near : Proxy} (sound : near.Sound)
    (own : (near.tunnels name).stream = some n) :
    (near.tunnels name).pending + (near.tunnels name).downlink.inHand < 2 ^ 32 ∨
      ∃ unwritten, (near.tunnels name).downlink = .shutting unwritten ∨
        (near.tunnels name).downlink = .ended unwritten := by
  have accounts := (sound.down own).accounts
  have small := sound.accepted_small (sound.known own)
  have limit : grantThreshold + maxChunk < 2 ^ 32 := by decide
  have short {before : List Bytes} {chunk : Bytes}
      (shape : (near.session.arena n).took = before ++ [chunk]) : chunk.length ≤ maxChunk := by
    have member : chunk ∈ (near.session.arena n).took := by
      rw [shape]
      simp
    exact small chunk (List.mem_of_mem_take member)
  unfold Tunnel.Accounts at accounts
  split at accounts
  · rename_i waiting
    have low := ledger_pending (near.session.arena n).took
    rw [← accounts] at low
    rw [waiting]
    simp only [Downlink.inHand]
    omega
  · rename_i rest size writing
    obtain ⟨before, chunk, shape, rfl, owed⟩ := accounts
    have low := ledger_pending before
    have most := short shape
    rw [← owed] at low
    rw [writing]
    simp only [Downlink.inHand]
    omega
  · rename_i granting
    obtain ⟨before, chunk, shape, -, pending, -⟩ := accounts
    have low := ledger_pending before
    have most := short shape
    rw [granting, pending]
    simp only [Downlink.inHand]
    omega
  · rename_i unwritten shutting
    exact .inr ⟨unwritten, .inl shutting⟩
  · rename_i unwritten ended
    exact .inr ⟨unwritten, .inr ended⟩

/-- The opener's side of the books for one id. -/
structure Proxy.Returns (near : Proxy) (id : UInt32) : Prop where
  granted : ∀ name n, (near.tunnels name).stream = some n → (near.session.arena n).id = id →
    (near.tunnels name).granted = grantsOn id near.session.out.accepted
  since : ∀ n < near.session.created, (near.session.arena n).id = id →
    track id (near.session.log.take (near.session.arena n).since) = []

theorem returns_link {near : Proxy} (returns : near.Returns id) (sound : near.Sound)
    (told : near.Told id) (stepped : near.session.step act = some s') (tasks : act.isLive = true) :
    ({ near with session := s' } : Proxy).Returns id := by
  have created := step_creates stepped told.reader
  have named {n : Nat} (known : n < near.session.created) := step_named stepped known
  refine ⟨fun name n own about => ?_, fun n known about => ?_⟩
  · have before := (named (sound.known own)).1.symm.trans about
    rw [returns.granted name n own before]
    obtain same | ⟨frame, replies, more⟩ := step_adds stepped
    · rw [show (_ : Session).out.accepted = _ from same]
    · have kind : frame.kind ≠ .window := by
        cases reading : near.session.reader <;> rw [reading] at replies <;> cases replies <;>
          simp [Frame.control]
      dsimp only
      rw [more, grantsOn_append, grantsOn_singleton, Frame.grants, if_neg fun named => kind named.2.1,
        Nat.add_zero]
  · dsimp only at known about ⊢
    rw [created] at known
    rw [(extends_step stepped tasks).log, (named known).2]
    exact returns.since n known ((named known).1.symm.trans about)

theorem returns_heard {near : Proxy} (returns : near.Returns id) (sound : near.Sound)
    (did : Heard near.session frame s') (stepped : near.session.step act = some s') :
    ({ near with session := s' } : Proxy).Returns id := by
  have named {n : Nat} (known : n < near.session.created) := step_named stepped known
  refine ⟨fun name n own about => ?_, fun n known about => ?_⟩
  · dsimp only
    rw [did.out]
    exact returns.granted name n own ((named (sound.known own)).1.symm.trans about)
  · dsimp only at known about ⊢
    rw [did.created] at known
    rw [did.log, (named known).2, List.take_append_of_le_length (sound.wired.fed n known).since]
    exact returns.since n known ((named known).1.symm.trans about)

/-- A step of a tunnel that keeps its stream, or has none yet. -/
private theorem returns_kept {near : Proxy} (returns : near.Returns id) (sound : near.Sound)
    (move : Move near.session (near.tunnels name) act s' t') (sole : s'.Sole id)
    (kept : t'.stream = (near.tunnels name).stream) : (near.put name s' t').Returns id := by
  have quiet := move.quiet
  have known {n : Nat} (below : n < near.session.created) : n < s'.created :=
    Nat.lt_of_lt_of_le below quiet.created
  refine ⟨fun other n own about => ?_, fun n below about => ?_⟩
  · have owned : (near.tunnels other).stream = some n := by
      by_cases self : other = name
      · subst self
        rw [Proxy.put_self, kept] at own
        exact own
      · rw [Proxy.put_other _ self] at own
        exact own
    have before := (quiet.id n (sound.known owned)).symm.trans about
    have books := returns.granted other n owned before
    rw [Proxy.put_session]
    obtain ⟨same, out⟩ | ⟨k, mine, granting, more, out⟩ := move.grants
    · rw [out id, ← books]
      by_cases self : other = name
      · subst self
        rw [Proxy.put_self, same]
      · rw [Proxy.put_other _ self]
    · rw [out, grantsOn_append, grantsOn_singleton]
      by_cases self : other = name
      · subst self
        obtain rfl : n = k := Option.some.inj (owned.symm.trans mine)
        have low : (near.tunnels other).pending < 2 ^ 32 := by
          have fits := sound.pending_low mine
          rw [granting] at fits
          simpa [Downlink.inHand] using fits
        rw [Proxy.put_self, more, before, grant_grants id low, books]
      · -- another tunnel's grant is about another id
        have aside : (Frame.grant (near.session.arena k).id (near.tunnels name).pending).grants id = 0 := by
          rw [Frame.grants, if_neg]
          rintro ⟨same, -⟩
          have one : n = k := by
            refine sole n k (known (sound.known owned)) (known (sound.known mine)) about ?_
            rw [quiet.id k (sound.known mine)]
            exact same
          subst one
          exact self (sound.apart owned mine)
        rw [Proxy.put_other _ self, aside, Nat.add_zero, books]
  · rw [Proxy.put_session] at below about ⊢
    by_cases older : n < near.session.created
    · rw [quiet.log, quiet.since n older]
      exact returns.since n older ((quiet.id n older).symm.trans about)
    · have same : s'.created = near.session.created := by
        cases move.draws with
        | nothing created => exact created
        | draws => rfl
        | names new holding =>
          have place := (sound.fits name).place
          rw [holding] at place
          rw [place] at kept
          cases kept
      omega

/-- A tunnel inserts its stream. -/
private theorem returns_insert {near : Proxy} (returns : near.Returns id) (sound : near.Sound)
    (told : near.Told id)
    (silent : track id near.session.out.accepted = [] → track id near.session.log = [])
    {new : UInt32} (phase : (near.tunnels name).phase = .opening (.insert new))
    (sole : (near.session.insert new).Sole id) :
    (near.put name (near.session.insert new) { near.tunnels name with
      phase := .opening (.announce near.session.created)
      stream := some near.session.created }).Returns id := by
  have known {n : Nat} (below : n < near.session.created) : n < (near.session.insert new).created :=
    Nat.lt_succ_of_lt below
  have last : ((near.session.insert new).arena near.session.created).id = new := by
    simp [Session.insert]
  have fresh {k : Nat} (below : k < near.session.created)
      (about : ((near.session.insert new).arena near.session.created).id = id) :
      (near.session.arena k).id ≠ id := by
    intro same
    rw [← arena_insert _ new below] at same
    exact Nat.ne_of_lt below (sole k _ (known below) (Nat.lt_succ_self _) same about)
  have unsaid (about : ((near.session.insert new).arena near.session.created).id = id) :
      track id near.session.out.accepted = [] := by
    by_contra some
    obtain ⟨k, below, same⟩ := told.origin some
    exact fresh below about same
  refine ⟨fun other n own about => ?_, fun n below about => ?_⟩
  · rw [Proxy.put_session] at about ⊢
    by_cases self : other = name
    · subst self
      rw [Proxy.put_self] at own ⊢
      obtain rfl : near.session.created = n := Option.some.inj own
      have place := (sound.fits other).place
      rw [phase] at place
      have blank := congrArg Tunnel.granted ((sound.fits other).blank place)
      show (near.tunnels other).granted = grantsOn id near.session.out.accepted
      rw [blank, grantsOn_of_silent (unsaid about)]
    · rw [Proxy.put_other _ self] at own ⊢
      rw [arena_insert _ new (sound.known own)] at about
      exact returns.granted other n own about
  · rw [Proxy.put_session] at below about ⊢
    obtain older | rfl := Nat.lt_succ_iff_lt_or_eq.mp below
    · rw [arena_insert _ new older] at about ⊢
      exact returns.since n older about
    · have since : ((near.session.insert new).arena near.session.created).since =
          near.session.log.length := by simp [Session.insert]
      rw [since, show (near.session.insert new).log = near.session.log from rfl, List.take_length]
      exact silent (unsaid about)

theorem returns_move {near : Proxy} (returns : near.Returns id) (sound : near.Sound)
    (told : near.Told id)
    (silent : track id near.session.out.accepted = [] → track id near.session.log = [])
    (move : Move near.session (near.tunnels name) act s' t') (sole : s'.Sole id) :
    (near.put name s' t').Returns id := by
  obtain kept | ⟨new, phase, rfl, rfl⟩ := move.stream
  · exact returns_kept returns sound move sole kept
  · exact returns_insert returns sound told silent phase sole

/-- A step of a tunnel drops a receive half only as its caller returns, and only
its own. -/
theorem Move.isOpen (move : Move s t act s' t') (fits : t.Fits) (known : n < s.created)
    (kept : t.stream = some n → t'.phase ≠ .returned) :
    (s'.arena n).inbox.isOpen = (s.arena n).inbox.isOpen := by
  have place := fits.place
  have hangs {s : Session} {stream : Nat} (own : t.stream = some stream)
      (returns : t'.phase = .returned) :
      ((s.hangUp stream).arena n).inbox.isOpen = (s.arena n).inbox.isOpen := by
    have other : n ≠ stream := by
      rintro rfl
      exact kept own returns
    simp [Session.hangUp, Session.modify, other]
  cases move with
  | reserve _ did =>
    obtain ⟨-, same⟩ := Option.ite_none_left_eq_some.mp did
    cases same
    rfl
  | insert id => rw [arena_insert s id known]
  | announce stream _ did => rw [enqueue_arena did]
  | giveUp stream phase =>
    rw [phase] at place
    rw [hangs place rfl, arena_remove]
  | greeting stage next stream _ _ did => rw [sendStep_inbox did]
  | rejected stage stream _ own did => rw [hangs own rfl, sendStep_inbox did]
  | closed stream _ own did => rw [hangs own rfl, enqueue_arena did]
  | closeFails stream _ own => rw [hangs own rfl]
  | uplinkSend stage next stream _ _ did => rw [sendStep_inbox did]
  | recv stream chunk _ _ _ did =>
    obtain ⟨⟨first, inbox⟩, got, same⟩ := Option.map_eq_some_iff.mp did
    obtain ⟨rfl, -⟩ := Channel.recv_eq_some _ got
    cases same
    by_cases own : n = stream
    · subst own
      simp [Session.modify]
    · simp [Session.modify, own]
  | grant stream _ _ _ did => rw [enqueue_arena did]
  | leave stream => rw [arena_remove]
  | _ => rfl

/-- A tunnel whose stream is in the map has its receive half. -/
def Proxy.Listens (near : Proxy) : Prop :=
  ∀ name n, (near.tunnels name).stream = some n →
    near.session.streams (near.session.arena n).id = some n →
      (near.session.arena n).inbox.isOpen = true ∧ (near.tunnels name).phase ≠ .closing ∧
        (near.tunnels name).phase ≠ .returned

theorem step_streams (stepped : s.step act = some s') (known : n < s.created)
    (found : s'.streams (s.arena n).id = some n) : s.streams (s.arena n).id = some n := by
  obtain ⟨same, -⟩ | ⟨id, -, same⟩ | ⟨-, same⟩ | ⟨id, -, -, same⟩ := step_map stepped
  · rwa [same.streams] at found
  · rw [same.streams] at found
    exact removeAndClose_found found
  · rw [same.streams] at found
    cases found
  · rw [same.streams] at found
    exact (quiet_insert s id).streams n known found

theorem listens_link {near : Proxy} (listens : near.Listens) (sound : near.Sound)
    (stepped : near.session.step act = some s') : ({ near with session := s' } : Proxy).Listens := by
  intro name n own found
  have known := sound.known own
  dsimp only at found ⊢
  rw [(step_named stepped known).1] at found
  obtain ⟨opened, phase⟩ := listens name n own (step_streams stepped known found)
  refine ⟨?_, phase⟩
  obtain same | ⟨id, body, -, -, -, -, pushed⟩ := step_inbox stepped known
  · rw [same]
    exact opened
  · rw [pushed, Channel.push_isOpen]
    exact opened

/-- While its stream is in the map a tunnel's caller does not return. -/
theorem Move.returns (move : Move s t act s' t') (fits : t.Fits) (valid : Valid s) (live : Live s)
    (own : t.stream = some n) (found : s'.streams (s.arena n).id = some n)
    (before : s.streams (s.arena n).id = some n) (going : t.phase ≠ .closing ∧ t.phase ≠ .returned) :
    t'.phase ≠ .closing ∧ t'.phase ≠ .returned := by
  have place := fits.place
  have mine {stream : Nat} (same : t.stream = some stream) : stream = n :=
    Option.some.inj (same.symm.trans own)
  cases move with
  | refused phase =>
    rw [phase] at place
    rw [place] at own
    cases own
  | giveUp stream phase =>
    rw [phase] at place
    obtain rfl := mine place
    have gone : (s.remove (s.arena stream).id).streams (s.arena stream).id = some stream := found
    rw [remove_streams, if_pos rfl] at gone
    cases gone
  | greeting stage next => cases next <;> simp_all [Tunnel.greeted]
  | rejected stage stream _ owned did =>
    -- the gate of a stream in the map is open
    obtain rfl := mine owned
    have fails := sendStep_fails did
    cases stage with
    | acquire rest => exact absurd fails (by simp [Session.SendFails, valid.gate before])
    | queue chunk rest => exact absurd fails (by simp [Session.SendFails, live.opened])
    | _ => exact fails.elim
  | closed stream phase => exact absurd phase going.1
  | closeFails stream phase => exact absurd phase going.1
  | leave stream _ owned =>
    obtain rfl := mine owned
    rw [remove_streams, if_pos rfl] at found
    cases found
  | begin => simp
  | reserve => simp
  | allocate => simp
  | insert => simp
  | announce => simp
  | announceFails => simp
  | _ => exact going

theorem listens_move {near : Proxy} (listens : near.Listens) (sound : near.Sound)
    (live : Live near.session) (move : Move near.session (near.tunnels name) act s' t') :
    (near.put name s' t').Listens := by
  have quiet := move.quiet
  intro other n own found
  rw [Proxy.put_session] at found ⊢
  by_cases self : other = name
  · subst self
    rw [Proxy.put_self] at own ⊢
    obtain kept | ⟨new, phase, rfl, rfl⟩ := move.stream
    · rw [kept] at own
      have known := sound.known own
      rw [quiet.id n known] at found
      have before := quiet.streams n known found
      obtain ⟨opened, going⟩ := listens other n own before
      have after := move.returns (sound.fits other) sound.wired.valid live own found before going
      refine ⟨?_, after⟩
      rw [move.isOpen (sound.fits other) known fun _ => after.2]
      exact opened
    · obtain rfl : near.session.created = n := Option.some.inj own
      simp [Session.insert]
  · rw [Proxy.put_other _ self] at own ⊢
    have known := sound.known own
    rw [quiet.id n known] at found
    obtain ⟨opened, going⟩ := listens other n own (quiet.streams n known found)
    refine ⟨?_, going⟩
    rw [move.isOpen (sound.fits name) known fun mine => absurd (sound.apart own mine) self]
    exact opened

/-- The books of both ends. -/
structure Pair.Booked (p : Pair) : Prop where
  whole : p.Whole
  listens : p.near.Listens
  books : ∀ id, id ≠ 0 → p.near.session.Sole id → p.near.Returns id ∧ p.far.Balanced id

/-- Nothing has come back about a stream nobody has spoken of. -/
theorem Pair.Traced.unanswered (traced : p.Traced id) (joined : p.Joined)
    (unsaid : track id p.near.session.out.accepted = []) : track id p.near.session.log = [] := by
  by_contra some
  have said := traced.learnt.said (track_of_front joined.toNear.front some)
  exact track_of_front joined.toFar.front said unsaid

theorem Pair.Traced.log_opens (traced : p.Traced id) (joined : p.Joined) :
    Opens (track id p.far.session.log) := by
  obtain ⟨rest, sent⟩ := joined.toFar.front
  have opens := traced.told.opens
  rw [← sent, track_append] at opens
  exact opens.front

theorem Pair.Booked.start (nearStreams farStreams : Nat) :
    (Pair.start nearStreams farStreams).Booked := by
  refine ⟨.start nearStreams farStreams, ?_, fun id _ _ => ⟨⟨?_, ?_⟩, fun _ _ => rfl, ?_⟩⟩
  · intro name n own
    cases own
  · intro name n own
    cases own
  · intro n known
    exact absurd known (Nat.not_lt_zero n)
  · intro n found
    cases found

theorem Pair.Booked.step {q : Pair} (booked : p.Booked) (stepped : p.step act = some q) :
    q.Booked := by
  obtain ⟨whole, listens, books⟩ := booked
  have joined := whole.joined
  have move := Pair.step_move joined stepped
  refine ⟨whole.step stepped, ?_, fun id stream sole => ?_⟩
  · cases move with
    | nearLink act tasks did => exact listens_link listens joined.sound did
    | nearTunnel name act did => exact listens_move listens joined.sound joined.nearLive did
    | nearHears frame next idle did heard =>
      obtain ⟨session, read, same⟩ := Option.map_eq_some_iff.mp heard
      cases same
      exact listens_link listens joined.sound read
    | _ => exact listens
  · have before := move.sole_before sole
    have traced := whole.traced id stream before
    obtain ⟨returns, balanced⟩ := books id stream before
    cases move with
    | nearLink act tasks did =>
      exact ⟨returns_link returns joined.sound traced.told did tasks, balanced⟩
    | nearTunnel name act did =>
      exact ⟨returns_move returns joined.sound traced.told (traced.unanswered joined) did sole, balanced⟩
    | farLink act tasks did =>
      exact ⟨returns, balanced_link balanced joined.wired joined.farLive traced.learnt
        (traced.log_opens joined) stream did tasks⟩
    | farUser act did =>
      exact ⟨returns, balanced_user balanced joined.wired joined.farLive traced.learnt did⟩
    | nearHears frame next idle did heard =>
      obtain ⟨session, read, same⟩ := Option.map_eq_some_iff.mp heard
      cases same
      exact ⟨returns_heard returns joined.sound did read, balanced⟩
    | farHears frame next idle did =>
      exact ⟨returns, balanced_heard balanced joined.wired.valid stream did⟩

/-- Where the credit of a stream is: with the sender, in its hand, in its outbox
or on the link, in `read_loop`'s hand, in the inbox, in the chunk being written,
in the downlink's counter, and on its way back. -/
def Pair.credit (p : Pair) (id : UInt32) (name n m : Nat) : Nat :=
  (p.far.session.arena m).credit.permits + (p.far.sending m).inHand + dataBytes id p.toNear +
    (p.near.session.reader.offered n).flatten.length +
    (p.near.session.arena n).inbox.queue.flatten.length + (p.near.tunnels name).downlink.inHand +
    (p.near.tunnels name).pending + grantsOn id p.toFar

/-- The downlink loop has not been left. -/
def Downlink.isGoing : Downlink → Bool
  | .waiting | .writing _ _ | .granting => true
  | _ => false

/-- What a tunnel has granted, owes and holds is what it has taken. -/
theorem Down.total {st : Stream} (down : Down t st) (going : t.downlink.isGoing = true) :
    t.granted + t.pending + t.downlink.inHand = st.took.flatten.length := by
  have accounts := down.accounts
  unfold Tunnel.Accounts at accounts
  split at accounts
  · rename_i waiting
    have total := ledger_total st.took
    rw [← accounts] at total
    rw [waiting]
    simpa [Downlink.inHand] using total
  · rename_i rest size writing
    obtain ⟨before, chunk, shape, rfl, owed⟩ := accounts
    have total := ledger_total before
    rw [← owed] at total
    rw [writing, shape]
    simp only [Downlink.inHand, List.flatten_append, List.flatten_singleton, List.length_append]
    omega
  · rename_i granting
    obtain ⟨before, chunk, shape, granted, pending, -⟩ := accounts
    have total := ledger_total before
    rw [granting, shape, granted, pending]
    simp only [Downlink.inHand, List.flatten_append, List.flatten_singleton, List.length_append]
    omega
  · rename_i unwritten shutting
    rw [shutting] at going
    cases going
  · rename_i unwritten ended
    rw [ended] at going
    cases going

/-- The conservation law, from the books of both ends and the link. -/
theorem Pair.Booked.conserved (booked : p.Booked) {name n m : Nat}
    (own : (p.near.tunnels name).stream = some n) (near : p.near.session.streams id = some n)
    (far : p.far.session.streams id = some m) (sole : p.near.session.Sole id)
    (going : (p.near.tunnels name).downlink.isGoing = true)
    (kept : ¬ p.near.session.reader.Lost n) : p.credit id name n m = window := by
  have joined := booked.whole.joined
  obtain ⟨known, named⟩ := joined.sound.wired.valid.known near
  have stream : id ≠ 0 := by
    obtain ⟨present, under⟩ := joined.wired.valid.known far
    exact fun zero => booked.whole.nonzero.streams m present (under.trans zero)
  obtain ⟨returns, balanced⟩ := booked.books id stream sole
  have opened := (booked.listens name n own (by rw [named]; exact near)).1
  -- the sender's books and the tunnel's
  have sender := balanced.balance m far
  have granted := returns.granted name n own named
  have taken := (joined.sound.down own).total going
  -- what came over the link is in the inbox or in the reader's hand
  have heard : p.near.session.heard n = dataOn id p.near.session.log := by
    have early : dataOn id (p.near.session.log.take (p.near.session.arena n).since) = [] := by
      rw [dataOn, List.filterMap_eq_nil_iff]
      intro frame member
      have other : frame.id ≠ id := fun about =>
        track_ne_nil.mpr ⟨frame, member, about⟩ (returns.since n known named)
      simp [other]
    rw [Session.heard, named, ← List.take_append_drop (p.near.session.arena n).since
      p.near.session.log, dataOn_append, early, List.nil_append, List.take_append_drop]
  have complete := (joined.sound.wired.fed n known).complete opened (named ▸ stream)
    (by rw [named]; exact near) kept
  rw [heard, ← Channel.take_append_queue] at complete
  have arrived := congrArg (fun chunks => (List.flatten chunks).length) complete
  simp only [List.flatten_append, List.length_append] at arrived
  rw [show ((p.near.session.arena n).inbox.accepted.take _).flatten.length = _ from taken.symm] at arrived
  -- and what is still on it
  have down : dataBytes id p.far.session.out.accepted =
      (dataOn id p.near.session.log).flatten.length + dataBytes id p.toNear := by
    rw [Pair.toNear, ← dataBytes, ← dataBytes_append,
      List.prefix_iff_eq_append.mp joined.toNear.front]
  have up : grantsOn id p.near.session.out.accepted =
      grantsOn id p.far.session.log + grantsOn id p.toFar := by
    rw [Pair.toFar, ← grantsOn_append, List.prefix_iff_eq_append.mp joined.toFar.front]
  unfold Pair.credit
  omega

/-- One stream before any error or close: a tunnel has it, the sender has it
under the same id, no other stream of the opener has had that id, the downlink
loop is going and `read_loop` has not found the inbox full. -/
structure Pair.Connects (p : Pair) (id : UInt32) (name n m : Nat) : Prop where
  own : (p.near.tunnels name).stream = some n
  near : p.near.session.streams id = some n
  far : p.far.session.streams id = some m
  sole : p.near.session.Sole id
  going : (p.near.tunnels name).downlink.isGoing = true
  kept : ¬ p.near.session.reader.Lost n

/-- DATA bytes on their way from the sender's permits to the downlink. -/
def Pair.inFlight (p : Pair) (id : UInt32) (n m : Nat) : Nat :=
  (p.far.sending m).inHand + dataBytes id p.toNear +
    (p.near.session.reader.offered n).flatten.length +
    (p.near.session.arena n).inbox.queue.flatten.length

/-- With nothing in flight the sender has more than half a window and goes on. -/
theorem Pair.Booked.resumes (booked : p.Booked) {name n m : Nat}
    (connects : p.Connects id name n m) (waiting : (p.near.tunnels name).downlink = .waiting)
    (landed : p.inFlight id n m = 0) (returned : grantsOn id p.toFar = 0) :
    window / 2 < (p.far.session.arena m).credit.permits ∧
      maxPayload ≤ (p.far.session.arena m).credit.permits ∧
      ∀ rest, ∃ session, p.far.session.sendStep m (.acquire rest) =
        some (session, .queue (rest.take (min rest.length maxPayload))
          (rest.drop (min rest.length maxPayload))) := by
  obtain ⟨own, near, far, sole, going, kept⟩ := connects
  have conserved := booked.conserved own near far sole going kept
  have owed : (p.near.tunnels name).pending < grantThreshold := by
    have accounts := (booked.whole.joined.sound.down own).accounts
    rw [Tunnel.Accounts, waiting] at accounts
    have low := ledger_pending (p.near.session.arena n).took
    rw [← accounts] at low
    exact low
  have gate := booked.whole.joined.wired.valid.gate far
  unfold Pair.inFlight at landed
  unfold Pair.credit at conserved
  rw [waiting, returned] at conserved
  simp only [Downlink.inHand] at conserved
  have half : window / 2 < (p.far.session.arena m).credit.permits := by
    simp only [grantThreshold, window] at owed conserved ⊢
    omega
  have enough : maxPayload ≤ (p.far.session.arena m).credit.permits := by
    simp only [maxPayload, window] at half ⊢
    omega
  refine ⟨half, enough, fun rest => ?_⟩
  have fits : min rest.length maxPayload ≤ (p.far.session.arena m).credit.permits :=
    Nat.le_trans (Nat.min_le_right _ _) enough
  have got := Semaphore.acquireMany_eq_some.mpr ⟨gate, fits, rfl⟩
  simp only [Session.sendStep, gate, got, Bool.false_eq_true, if_false, Option.map_some,
    Option.some.injEq, Prod.mk.injEq, and_true, exists_eq']

/-- The downlink's counter does not wrap, whatever the bridge sends. -/
theorem Proxy.Sound.counts {near : Proxy} (sound : near.Sound)
    (writing : (near.tunnels name).downlink = .writing rest size) :
    (near.tunnels name).pending + size < 2 ^ 32 := by
  cases own : (near.tunnels name).stream with
  | none =>
    have blank := congrArg Tunnel.downlink ((sound.fits name).blank own)
    rw [writing] at blank
    cases blank
  | some n =>
    have low := sound.pending_low own
    rw [writing] at low
    simpa [Downlink.inHand] using low

/-- Credit is conserved in every state of every run before an error or close; so
a sender whose bytes have all been written can go on, and the counter of bytes
owed never overflows, even for a peer that ignores its credit. -/
theorem downlink_credit_is_conserved :
    (∀ (nearStreams farStreams : Nat) (actions : List PairAct) (p : Pair),
      run Pair.step (.start nearStreams farStreams) actions = some p →
      ∀ (id : UInt32) (name n m : Nat), p.Connects id name n m →
        p.credit id name n m = window ∧
        ((p.near.tunnels name).downlink = .waiting → p.inFlight id n m = 0 →
          grantsOn id p.toFar = 0 →
          window / 2 < (p.far.session.arena m).credit.permits ∧
          maxPayload ≤ (p.far.session.arena m).credit.permits ∧
          ∀ rest, ∃ session, p.far.session.sendStep m (.acquire rest) =
            some (session, .queue (rest.take (min rest.length maxPayload))
              (rest.drop (min rest.length maxPayload))))) ∧
    ∀ (maxStreams : Nat) (actions : List ProxyAct) (p : Proxy),
      run Proxy.step (.start maxStreams) actions = some p →
      ∀ name rest size, (p.tunnels name).downlink = .writing rest size →
        (p.tunnels name).pending + size < 2 ^ 32 := by
  refine ⟨fun nearStreams farStreams actions p ran id name n m connects => ?_,
    fun maxStreams actions p ran name rest size writing => ?_⟩
  · have booked : p.Booked := run_preserves Pair.Booked
      (fun _ _ _ booked stepped => booked.step stepped) (.start nearStreams farStreams) ran
    refine ⟨?_, booked.resumes connects⟩
    exact booked.conserved connects.own connects.near connects.far connects.sole connects.going
      connects.kept
  · exact ((Proxy.Sound.start maxStreams).run ran).counts writing

/-- One tunnel comes up and the sender has its stream. -/
private def coupled : List PairAct :=
  (.near (.tunnel 0 (.begin (List.replicate 37 0)))) ::
    List.replicate 6 (.near (.tunnel 0 .proceed)) ++
  [.near (.link (.takeBatch 2)), .near (.link .feed), .near (.link .feed), .farHears,
    .far (.link .advance), .farHears, .far (.link .advance)]

/-- Three bytes come down, and the downlink has them in hand. -/
private def descending : List PairAct :=
  coupled ++ [.far (.send 0 [1, 2, 3]), .far (.proceed 0), .far (.proceed 0),
    .far (.link (.takeBatch 1)), .far (.link .feed), .nearHears, .near (.link .advance),
    .near (.tunnel 0 .recv)]

/-- The same seen from the proxy alone, with a bridge that sends one byte. -/
private def delivering : List ProxyAct :=
  (.tunnel 0 (.begin (List.replicate 37 0))) :: List.replicate 6 (.tunnel 0 .proceed) ++
  [.link (.recv [0, 0, 0, 1, 1, 0, 1, 0, 7]), .link .advance, .tunnel 0 .recv]

private theorem connects_first (actions : List PairAct)
    (checked : ((run Pair.step (.start 1 1) actions).any fun p =>
      (p.near.tunnels 0).stream = some 0 ∧ p.near.session.streams 1 = some 0 ∧
      p.far.session.streams 1 = some 0 ∧ p.near.session.created = 1 ∧
      (p.near.tunnels 0).downlink.isGoing = true ∧ p.near.session.reader = .idle) = true) :
    ∃ p, run Pair.step (.start 1 1) actions = some p ∧ p.Connects 1 0 0 0 := by
  obtain ⟨p, ran, holds⟩ := run_reaches checked
  obtain ⟨own, near, far, created, going, idle⟩ := holds
  refine ⟨p, ran, own, near, far, fun n k first second _ _ => by omega, going, ?_⟩
  simp [Reader.Lost, idle]

/-- Before the first byte, with three bytes in the downlink's hand, and under a
bridge that sends what it likes. -/
theorem downlink_credit_is_conserved_descending :
    (∃ p, run Pair.step (.start 1 1) coupled = some p ∧
      window / 2 < (p.far.session.arena 0).credit.permits) ∧
    (∃ p, run Pair.step (.start 1 1) descending = some p ∧ p.credit 1 0 0 0 = window ∧
      (p.near.tunnels 0).downlink.inHand = 3) ∧
    ∃ p, run Proxy.step (.start 1) delivering = some p ∧ (p.tunnels 0).pending + 1 < 2 ^ 32 := by
  obtain ⟨idle, up, first⟩ := connects_first coupled (by decide +kernel)
  obtain ⟨busy, down, second⟩ := connects_first descending (by decide +kernel)
  have quiet : ((run Pair.step (.start 1 1) coupled).any fun p =>
      (p.near.tunnels 0).downlink = .waiting ∧ p.inFlight 1 0 0 = 0 ∧ grantsOn 1 p.toFar = 0) =
      true := by decide +kernel
  have holding : ((run Pair.step (.start 1 1) descending).any fun p =>
      (p.near.tunnels 0).downlink.inHand = 3) = true := by decide +kernel
  have writing : ((run Proxy.step (.start 1) delivering).any fun p =>
      (p.tunnels 0).downlink = .writing [7] 1) = true := by decide +kernel
  rw [up] at quiet
  rw [down] at holding
  obtain ⟨p, ran, hand⟩ := (Option.any_eq_true _ _).mp writing
  simp only [Option.any_some, decide_eq_true_eq] at quiet holding hand
  obtain ⟨waiting, landed, returned⟩ := quiet
  refine ⟨⟨idle, up, ?_⟩, ⟨busy, down, ?_, holding⟩, p, ran, ?_⟩
  · exact ((downlink_credit_is_conserved.1 1 1 coupled idle up 1 0 0 0 first).2
      waiting landed returned).1
  · exact (downlink_credit_is_conserved.1 1 1 descending busy down 1 0 0 0 second).1
  · exact downlink_credit_is_conserved.2 1 delivering p ran 0 [7] 1 hand

end DshProxy.Mux

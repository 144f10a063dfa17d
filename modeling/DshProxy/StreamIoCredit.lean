import DshProxy.StreamIoReads

/-! The receive credit of `MuxStreamIo`. What it has handed to the reader it owes the
peer; it hands that back half a window at a time, and only in a read that yields
bytes. A grant that the outbox refuses waits for the next such read. -/
namespace DshProxy.Mux
open Sync Wire ByteOrder Transitions

variable {s s' : Session} {io io' : StreamIo} {ret : Option IoReturn} {r r' : IoRun} {n : Nat}

/-- The peer sends no more than its window and what it has been granted. -/
def IoRun.Respected (r : IoRun) : RunAct → Prop
  | .other (.link .advance) =>
    (r.inbox.accepted ++ r.users.session.reader.offered r.io.stream).flatten.length ≤ window + r.granted
  | _ => True

instance (r : IoRun) : (act : RunAct) → Decidable (r.Respected act)
  | .other (.link .advance) => inferInstanceAs (Decidable (_ ≤ _))
  | .other (.link (.recv _)) | .other (.link .lapse) | .other (.link .reply)
  | .other (.link (.takeBatch _)) | .other (.link .feed) | .other (.link .writerEnds)
  | .other (.link .readerAborted) | .other (.link .release) | .other (.link .shutdownClear)
  | .other (.link .shutdownAbort) | .other (.task _ _) | .own _ => isTrue trivial

/-- What holds of the credit in every state, whoever the peer is that keeps to it. -/
structure IoRun.Owes (r : IoRun) : Prop where
  reads : r.Reads
  peer : r.inbox.accepted.flatten.length ≤ window + r.granted
  owed : r.granted + r.io.creditDue = r.returned.length + r.io.inHand.length
  marked : r.refused = true → grantThreshold ≤ r.io.creditDue
  retried : (∀ bytes, r.io.call ≠ .crediting bytes) → grantThreshold ≤ r.io.creditDue →
    r.refused = true

/-- What has been handed out has been queued. -/
theorem IoRun.Reads.handed_le (reads : r.Reads) :
    r.returned.length + r.io.inHand.length ≤ r.inbox.accepted.flatten.length := by
  have front := congrArg List.length (congrArg List.flatten r.inbox.take_append_queue)
  rw [List.flatten_append, ← reads.whole] at front
  simp only [List.length_append] at front
  omega

/-- No more than a window is ever due. -/
theorem IoRun.Owes.due_le (owes : r.Owes) : r.io.creditDue ≤ window := by
  have handed := owes.reads.handed_le
  have peer := owes.peer
  have owed := owes.owed
  omega

theorem ungranted_of_same {id : UInt32} (out : s'.out = s.out) : grantsOn id (added s s') = 0 := by
  rw [added_of_same out]
  rfl

theorem ungranted_enqueue {id : UInt32} {frame : Frame} (queued : s.enqueue frame = some s')
    (other : frame.kind ≠ .window) : grantsOn id (added s s') = 0 := by
  rw [added_enqueue queued, grantsOn_singleton, Frame.grants, if_neg (fun grant => other grant.2.1)]

theorem ungranted_closeStream {id : UInt32} {ok : Bool} (did : s.closeStream n ok = some s') :
    grantsOn id (added s s') = 0 := by
  obtain ⟨-, queued⟩ | ⟨-, rfl⟩ := closeStream_cases did
  · have same : added s s' = added (s.removeAndClose (s.arena n).id) s' := by
      rw [added, added, removeAndClose_out]
    rw [same]
    exact ungranted_enqueue queued (by simp [Frame.control])
  · exact ungranted_of_same (removeAndClose_out s _)

theorem SendMove.ungranted {id : UInt32} {stage next : Sending} (move : SendMove s n stage s' next) :
    grantsOn id (added s s') = 0 := by
  cases move with
  | queues chunk rest did => exact ungranted_enqueue did (by simp)
  | _ => exact ungranted_of_same rfl

/-- A piece that hands back no credit. -/
private theorem owes_still (owes : r.Owes) {own : IoAct}
    (move : IoMove r.users.session r.io own s' io' ret) (due : io'.creditDue = r.io.creditDue)
    (nothing : grantsOn (r.users.session.arena io'.stream).id (added r.users.session s') = 0)
    (handed : r.io.inHand = IoReturn.bytes ret ++ io'.inHand)
    (refused : r.refusedAfter own = r.refused)
    (settled : (∀ bytes, io'.call ≠ .crediting bytes) → grantThreshold ≤ r.io.creditDue →
      r.refused = true) :
    (r.after own s' io' ret).Owes := by
  have accepted : (r.after own s' io' ret).inbox.accepted = r.inbox.accepted := by
    rw [IoRun.inbox, IoRun.after, move.stream]
    exact (move.quiet owes.reads.known).accepted _ owes.reads.known
  have owed := owes.owed
  rw [handed, List.length_append] at owed
  refine ⟨move.reads owes.reads, ?_, ?_, ?_, ?_⟩
  · rw [accepted]
    exact Nat.le_trans owes.peer (by simp [IoRun.after])
  · simp only [IoRun.after, nothing, due, List.length_append]
    omega
  · simp only [IoRun.after, refused, due]
    exact owes.marked
  · simp only [IoRun.after, refused, due]
    exact settled

/-- `flush_credit` hands back all that is due; where the outbox refuses it, that is
marked. -/
private theorem owes_flush (owes : r.Owes) {ok : Bool} {mid : StreamIo}
    (move : IoMove r.users.session r.io (.proceed ok) s' io' ret)
    (did : r.users.session.flushCredit r.io ok = some (s', mid)) (same : io'.creditDue = mid.creditDue)
    (handed : r.io.inHand = IoReturn.bytes ret ++ io'.inHand)
    (down : ok = true → r.refusedAfter (.proceed ok) = false)
    (up : ok = false → (r.refusedAfter (.proceed ok) = true ↔ grantThreshold ≤ r.io.creditDue)) :
    (r.after (.proceed ok) s' io' ret).Owes := by
  have stream := move.stream
  have accepted : (r.after (.proceed ok) s' io' ret).inbox.accepted = r.inbox.accepted := by
    rw [IoRun.inbox, IoRun.after, stream]
    exact (move.quiet owes.reads.known).accepted _ owes.reads.known
  have peer : (r.after (.proceed ok) s' io' ret).inbox.accepted.flatten.length ≤
      window + (r.after (.proceed ok) s' io' ret).granted := by
    rw [accepted]
    exact Nat.le_trans owes.peer (by simp [IoRun.after])
  have owed := owes.owed
  rw [handed, List.length_append] at owed
  obtain ⟨none, due, kept⟩ | ⟨one, due, rfl⟩ := added_flushCredit did
  · rw [due] at same
    refine ⟨move.reads owes.reads, peer, ?_, fun refused => ?_, fun _ long => ?_⟩
    · simp only [IoRun.after, none, same, List.length_append, grantsOn, List.map_nil, List.sum_nil]
      omega
    · cases ok with
      | true => cases (down rfl).symm.trans refused
      | false => exact Nat.le_trans ((up rfl).mp refused) (Nat.le_of_eq same.symm)
    · replace long : grantThreshold ≤ r.io.creditDue := Nat.le_trans long (Nat.le_of_eq same)
      obtain zero | rfl := kept
      · rw [zero] at long
        cases long
      · exact (up rfl).mpr long
  · rw [due] at same
    have all : grantsOn (r.users.session.arena r.io.stream).id (added r.users.session s') =
        r.io.creditDue := by
      rw [one, grantsOn_singleton]
      exact grant_grants _ (Nat.lt_of_le_of_lt owes.due_le (by decide))
    refine ⟨move.reads owes.reads, peer, ?_, fun refused => ?_, fun _ long => ?_⟩
    · simp only [IoRun.after, stream, all, same, List.length_append]
      omega
    · cases (down rfl).symm.trans refused
    · cases Nat.le_trans long (Nat.le_of_eq same)

/-- Nothing is in hand but between a read and its `return_credit`. -/
theorem inHand_of_calm (calm : ∀ bytes, io.call ≠ .crediting bytes) : io.inHand = [] := by
  unfold StreamIo.inHand
  split
  · exact absurd (by assumption) (calm _)
  · rfl

/-- A piece that is about neither bytes nor credit. -/
private theorem owes_aside (owes : r.Owes) {own : IoAct}
    (move : IoMove r.users.session r.io own s' io' ret) (calm : ∀ bytes, r.io.call ≠ .crediting bytes)
    (due : io'.creditDue = r.io.creditDue)
    (nothing : grantsOn (r.users.session.arena io'.stream).id (added r.users.session s') = 0)
    (unread : IoReturn.bytes ret ++ io'.inHand = []) (same : r.refusedAfter own = r.refused) :
    (r.after own s' io' ret).Owes := by
  apply owes_still owes move due nothing _ same
  · intro _
    exact owes.retried calm
  · rw [unread]
    exact inHand_of_calm calm

/-- The `flush_credit` of a stream that ends. -/
private theorem owes_ending (owes : r.Owes) {ok : Bool} {mid : StreamIo}
    (move : IoMove r.users.session r.io (.proceed ok) s' io' ret)
    (calm : ∀ bytes, r.io.call ≠ .crediting bytes)
    (did : r.users.session.flushCredit r.io ok = some (s', mid)) (due : io'.creditDue = mid.creditDue)
    (unread : IoReturn.bytes ret ++ io'.inHand = [])
    (mark : r.refusedAfter (.proceed ok) = (r.refused && !ok)) :
    (r.after (.proceed ok) s' io' ret).Owes := by
  apply owes_flush owes move did due
  · rw [unread]
    exact inHand_of_calm calm
  · rintro rfl
    rw [mark]
    exact Bool.and_false _
  · rintro rfl
    rw [mark]
    simpa using ⟨owes.marked, owes.retried calm⟩

/-- The bytes handed over are due from now on; with a peer that keeps to its credit
the count does not overflow. -/
private theorem owes_hand (owes : r.Owes) {room : Nat} {chunk : Bytes} (idle : r.io.call = .idle)
    (move : IoMove r.users.session r.io (.pollRead room) s' (r.io.hand chunk room) none)
    (out : s'.out = r.users.session.out) :
    (r.after (.pollRead room) s' (r.io.hand chunk room) none).Owes := by
  have reads := move.reads owes.reads
  have accepted : (r.after (.pollRead room) s' (r.io.hand chunk room) none).inbox.accepted =
      r.inbox.accepted := (move.quiet owes.reads.known).accepted _ owes.reads.known
  have granted : (r.after (.pollRead room) s' (r.io.hand chunk room) none).granted = r.granted := by
    simp [IoRun.after, ungranted_of_same out]
  have owed : r.granted + r.io.creditDue = r.returned.length := by
    simpa [StreamIo.inHand, idle] using owes.owed
  have handed := reads.handed_le
  have returned : (r.after (.pollRead room) s' (r.io.hand chunk room) none).returned.length =
      r.returned.length := by simp [IoRun.after, IoReturn.bytes]
  have filled : (r.after (.pollRead room) s' (r.io.hand chunk room) none).io.inHand.length =
      min chunk.length room := by simp [IoRun.after, StreamIo.inHand, StreamIo.hand]
  rw [accepted, returned, filled] at handed
  have peer := owes.peer
  have small : r.io.creditDue + min chunk.length room < 2 ^ 32 := by
    simp only [window] at peer
    omega
  have due : (r.after (.pollRead room) s' (r.io.hand chunk room) none).io.creditDue =
      r.io.creditDue + min chunk.length room := Nat.mod_eq_of_lt small
  refine ⟨reads, ?_, ?_, fun refused => ?_, fun calm => absurd rfl (calm _)⟩
  · rw [accepted, granted]
    exact peer
  · rw [granted, due, returned, filled]
    omega
  · have marked : grantThreshold ≤ r.io.creditDue := owes.marked (by
      simpa [IoRun.after, IoRun.refusedAfter, idle] using refused)
    rw [due]
    omega

/-- Every piece of the stream's own keeps the credit. -/
theorem IoMove.owes (owes : r.Owes) {own : IoAct} (move : IoMove r.users.session r.io own s' io' ret) :
    (r.after own s' io' ret).Owes := by
  have still := owes_still owes move
  have aside := owes_aside owes move
  cases move with
  | drains room chunk idle held => exact owes_hand owes idle (.drains room chunk idle held) rfl
  | receives room chunk idle empty took =>
    exact owes_hand owes idle (.receives room chunk idle empty took) (take_out took)
  | parks room idle =>
    exact aside (by simp [idle]) rfl (ungranted_of_same rfl) (by simp [IoReturn.bytes, StreamIo.inHand, idle])
      (by simp [IoRun.refusedAfter])
  | ends room idle =>
    exact aside (by simp [idle]) rfl (ungranted_of_same rfl) rfl (by simp [IoRun.refusedAfter])
  | refuses cx data stage idle =>
    exact aside (by simp [idle]) rfl (ungranted_of_same rfl) (by simp [IoReturn.bytes, StreamIo.inHand, idle])
      (by simp [IoRun.refusedAfter])
  | buffers cx data idle =>
    exact aside (by simp [idle]) rfl (ungranted_of_same rfl) (by simp [IoReturn.bytes, StreamIo.inHand, idle])
      (by simp [IoRun.refusedAfter])
  | stages cx data idle =>
    exact aside (by simp [idle]) rfl (ungranted_of_same rfl) (by simp [IoReturn.bytes, StreamIo.inHand, idle])
      (by simp [IoRun.refusedAfter])
  | flush cx idle =>
    exact aside (by simp [idle]) rfl (ungranted_of_same rfl) rfl (by simp [IoRun.refusedAfter])
  | shutdown cx idle =>
    exact aside (by simp [idle]) rfl (ungranted_of_same rfl) rfl (by simp [IoRun.refusedAfter])
  | drop idle =>
    exact aside (by simp [idle]) rfl (ungranted_of_same rfl) rfl (by simp [IoRun.refusedAfter])
  | credits bytes ok call did =>
    obtain ⟨low, rfl, rfl⟩ | ⟨long, flushed⟩ := returnCredit_cases did
    · refine still rfl (ungranted_of_same rfl) (by simp [StreamIo.inHand, call, IoReturn.bytes]) ?_ ?_
      · simp [IoRun.refusedAfter, call, Nat.not_le.mpr low]
      · intro _ long
        omega
    · refine owes_flush owes (.credits bytes ok call did) flushed rfl ?_ ?_ ?_
      · simp [StreamIo.inHand, call, IoReturn.bytes]
      · rintro rfl
        simp [IoRun.refusedAfter, call, long]
      · rintro rfl
        simp [IoRun.refusedAfter, call, long]
  | finishes ok call did =>
    exact owes_ending owes (.finishes ok call did) (by simp [call]) did rfl rfl
      (by simp [IoRun.refusedAfter, call])
  | settles result ok call did =>
    exact owes_ending owes (.settles result ok call did) (by simp [call]) did rfl rfl
      (by simp [IoRun.refusedAfter, call])
  | closes result ok call did =>
    have plain := owes.reads.plain
    refine aside (by simp [call]) rfl (ungranted_closeStream did) ?_ (by simp [IoRun.refusedAfter, call])
    cases result with
    | read bytes => exact absurd call (plain bytes).2
    | _ => rfl
  | hangs ok call =>
    exact aside (by simp [call]) rfl (ungranted_of_same rfl) rfl (by simp [IoRun.refusedAfter, call])
  | flushed cx shutdown ok call =>
    cases shutdown <;>
    exact aside (by simp [call]) rfl (ungranted_of_same rfl) rfl (by simp [IoRun.refusedAfter, call])
  | coalesces cx shutdown ok call =>
    exact aside (by simp [call]) rfl (ungranted_of_same rfl) rfl (by simp [IoRun.refusedAfter, call])
  | sent cx shutdown ok call =>
    exact aside (by simp [call]) rfl (ungranted_of_same rfl) (by simp [IoReturn.bytes, StreamIo.inHand, call])
      (by simp [IoRun.refusedAfter, call])
  | breaks cx shutdown ok call =>
    cases shutdown <;>
    exact aside (by simp [call]) rfl (ungranted_of_same rfl) rfl (by simp [IoRun.refusedAfter, call])
  | polls cx shutdown stage next call busy did =>
    exact aside (by simp [call]) rfl (sendStep_move did).ungranted
      (by simp [IoReturn.bytes, StreamIo.inHand, call]) (by simp [IoRun.refusedAfter, call])
  | waits cx shutdown stage call =>
    exact aside (by simp [call]) rfl (ungranted_of_same rfl) rfl (by simp [IoRun.refusedAfter, call])

theorem IoRun.Owes.step (owes : r.Owes) {act : RunAct} (respected : r.Respected act)
    (stepped : r.step act = some r') : r'.Owes := by
  have reads := owes.reads.step stepped
  obtain ⟨theirs, users, rfl, avoids, did, rfl⟩ | ⟨own, session, io, ret, -, move, rfl⟩ :=
    IoRun.step_cases stepped
  · refine ⟨reads, ?_, owes.owed, owes.marked, owes.retried⟩
    obtain ⟨-, -, -, same | ⟨id, body, rfl, reading, pushed⟩⟩ := others_inbox avoids did owes.reads.known
    · rw [IoRun.inbox, same]
      exact owes.peer
    · rw [IoRun.inbox, pushed]
      simpa [IoRun.Respected, IoRun.inbox, Reader.offered, reading] using respected
  · exact move.owes owes

/-- A `poll_read` that returns Pending owes less than half a window, so the peer
holds, or is being granted, at least as much. -/
def IoRun.Unstarved (r : IoRun) (act : RunAct) : Prop :=
  ∀ room next, act = .own (.pollRead room) → r.step act = some next → next.last = some .pending →
    next.io.creditDue < grantThreshold ∧
    next.inbox.accepted.flatten.length + grantThreshold ≤ window + next.granted

/-- A `poll_read` that finds nothing comes when no grant that was due stands refused. -/
def IoRun.Retried (r : IoRun) : RunAct → Prop
  | .own (.pollRead _) => r.io.call = .idle → r.io.inbox = none → r.inbox.queue = [] →
    r.users.session.Feeds r.io.stream → r.refused = false
  | _ => True

instance (r : IoRun) : (act : RunAct) → Decidable (r.Retried act)
  | .own (.pollRead _) => inferInstanceAs (Decidable (_ → _ → _ → _ → _))
  | .own (.pollWrite _ _) | .own (.pollFlush _) | .own (.pollShutdown _) | .own .drop
  | .own (.proceed _) | .other _ => isTrue trivial

/-- A `poll_read` that returns Pending has found nothing, and changes nothing. -/
theorem pollRead_pending {room : Nat} (stepped : r.step (.own (.pollRead room)) = some r') :
    r.io.call = .idle ∧
    (r'.last = some .pending ↔ r.io.inbox = none ∧ r.inbox.queue = [] ∧
      r.users.session.Feeds r.io.stream) ∧
    (r'.last = some .pending → r'.io = r.io ∧ r'.inbox = r.inbox ∧ r'.granted = r.granted) := by
  obtain ⟨_, _, other, -⟩ | ⟨own, session, io, ret, same, move, rfl⟩ := IoRun.step_cases stepped
  · cases other
  cases same
  cases move with
  | drains _ chunk idle held => simp [idle, held, IoRun.after]
  | receives _ chunk idle empty took =>
    obtain ⟨-, queue, -, -⟩ := Channel.recv_eq_some _ (take_inbox took)
    have present : r.inbox.queue ≠ [] := by
      rw [IoRun.inbox, queue]
      simp
    simp [idle, present, IoRun.after]
  | parks _ idle empty nothing fed =>
    have none : r.inbox.queue = [] := take_none nothing
    refine ⟨idle, iff_of_true rfl ⟨empty, none, fed⟩, fun _ => ⟨rfl, rfl, ?_⟩⟩
    simp [IoRun.after, ungranted_of_same]
  | ends _ idle empty nothing unfed => simp [idle, unfed, IoRun.after]

theorem IoRun.Owes.unstarved_iff (owes : r.Owes) {act : RunAct} (stepped : r.step act = some r') :
    r.Unstarved act ↔ r.Retried act := by
  obtain ⟨room, rfl⟩ | other : (∃ room, act = .own (.pollRead room)) ∨
      ∀ room, act ≠ .own (.pollRead room) := Classical.exists_or_forall_not _
  · obtain ⟨idle, pending, same⟩ := pollRead_pending stepped
    constructor
    · intro unstarved _ empty none fed
      have parked := pending.mpr ⟨empty, none, fed⟩
      have low := (unstarved room r' rfl stepped parked).1
      rw [(same parked).1] at low
      refine Bool.eq_false_iff.mpr fun refused => ?_
      have long := owes.marked refused
      omega
    · rintro retried _ next - stepped' parked
      obtain rfl : r' = next := Option.some.inj (stepped.symm.trans stepped')
      obtain ⟨empty, none, fed⟩ := pending.mp parked
      obtain ⟨io, inbox, granted⟩ := same parked
      have taken := retried idle empty none fed
      have low : r.io.creditDue < grantThreshold := by
        refine Nat.lt_of_not_le fun long => ?_
        rw [owes.retried (by simp [idle]) long] at taken
        cases taken
      have all := (owes.reads.drained idle empty).mpr (by rw [none, List.flatten_nil])
      have owed := owes.owed
      rw [StreamIo.inHand, idle] at owed
      rw [io, inbox, granted, ← all]
      refine ⟨low, ?_⟩
      simp only [grantThreshold, window, List.length_nil] at low owed ⊢
      omega
  · refine iff_of_true (fun room _ same => absurd same (other room)) ?_
    unfold IoRun.Retried
    split
    · exact absurd rfl (other _)
    · trivial

/-- With a peer that keeps to its credit, the grants queued and the credit due are
the bytes handed to the reader. A reader that is parked owes less than half a window
exactly as long as none is parked while a grant that was due stands refused. -/
theorem poll_read_hands_back_credit {maxStreams : Nat} {onOpen : Bool} {setup : List UsersAct}
    {u : Users} (linked : run Users.step { session := .start maxStreams onOpen } setup = some u)
    {n : Nat} (known : n < u.session.created) (untouched : (u.session.arena n).inbox.taken = 0)
    (within : (u.session.arena n).inbox.accepted.flatten.length ≤ window) {actions : List RunAct}
    (respected : Meets IoRun.step IoRun.Respected (.start u n) actions) {t : IoRun}
    (ran : run IoRun.step (.start u n) actions = some t) :
    t.granted + t.io.creditDue = t.returned.length + t.io.inHand.length ∧
    (Meets IoRun.step IoRun.Unstarved (.start u n) actions ↔
      Meets IoRun.step IoRun.Retried (.start u n) actions) := by
  have start : (IoRun.start u n).Owes := by
    refine ⟨.start known (linked_wired linked) untouched, within, rfl, fun refused => ?_, fun _ long => ?_⟩
    · cases refused
    · cases long
  have kept (r : IoRun) (act : RunAct) (next : IoRun) (owes : r.Owes) (respected : r.Respected act)
      (stepped : r.step act = some next) : next.Owes := owes.step respected stepped
  refine ⟨(run_preserves_where IoRun.Owes kept start respected ran).owed, ?_⟩
  exact meets_iff_where IoRun.Owes kept (fun r act next owes _ stepped => owes.unstarved_iff stepped)
    start respected ran

/-- A DATA frame for stream 1 that takes an eighth of the window. -/
private def eighth : Frame := ⟨1, .data, List.replicate (window / 8) 0⟩

private theorem eighth_length : eighth.payload.length = window / 8 := List.length_replicate

private theorem parse_eighth : Frame.parse eighth.encode = some eighth :=
  Frame.parse_encode fun _ kind => nomatch kind

private theorem eighth_short : eighth.encode.length ≤ maxNoiseMsg - tagLen := by
  rw [Frame.encode_length, eighth_length]
  decide

/-- The link is served, the outbox is full, and of the chunks that came to stream 1
so many have been read; each is due, and none has been granted. -/
private structure Stalled (came read : Nat) (r : IoRun) : Prop where
  reader : r.users.session.reader = .idle
  entry : r.users.session.streams 1 = some 0
  named : (r.users.session.arena 0).id = 1
  opened : (r.users.session.arena 0).inbox.isOpen = true
  accepted : (r.users.session.arena 0).inbox.accepted = List.replicate came eighth.payload
  taken : (r.users.session.arena 0).inbox.taken = read
  full : r.users.session.out.len = outboxFrames
  live : r.users.session.out.isOpen = true
  fed : r.users.session.fed = r.users.session.out.taken
  io : r.io = { stream := 0, creditDue := read * (window / 8) }
  granted : r.granted = 0

private theorem echoes_stall : ∃ r, run IoRun.step (.start .opened 0) echoes = some r ∧
    Stalled 0 0 r := by
  have checked : ((run IoRun.step (.start .opened 0) echoes).any fun r =>
      decide (r.users.session.reader = .idle ∧ r.users.session.streams 1 = some 0 ∧
        (r.users.session.arena 0).id = 1 ∧ (r.users.session.arena 0).inbox.isOpen = true ∧
        (r.users.session.arena 0).inbox.accepted = [] ∧
        (r.users.session.arena 0).inbox.taken = 0 ∧ r.users.session.out.len = outboxFrames ∧
        r.users.session.out.isOpen = true ∧ r.users.session.fed = r.users.session.out.taken ∧
        r.io = { stream := 0 } ∧ r.granted = 0)) = true := by decide +kernel
  obtain ⟨r, ran, holds⟩ := run_reaches checked
  obtain ⟨reader, entry, named, opened, accepted, taken, full, live, fed, io, granted⟩ := holds
  exact ⟨r, ran, reader, entry, named, opened, accepted, taken, full, live, fed, io, granted⟩

private def delivers : List RunAct := [.other (.link (.recv eighth.encode)), .other (.link .advance)]

private theorem link_moves {act : Session.Act} (did : r.users.session.step act = some s') :
    ∃ next, r.step (.other (.link act)) = some next ∧ next.users.session = s' ∧ next.io = r.io ∧
      next.granted = r.granted := by
  refine ⟨{ r with users := { r.users with session := s' } }, ?_, rfl, rfl, rfl⟩
  simp [IoRun.step, Users.avoids, Users.step, did]

private theorem delivers_stall {came : Nat} (few : came < 8) (stalled : Stalled came 0 r) :
    ∃ next, run IoRun.step r delivers = some next ∧ Stalled (came + 1) 0 next ∧
      Meets IoRun.step (fun r act => r.Respected act ∧ r.Retried act) r delivers := by
  have entry : r.users.session.streams eighth.id = some 0 := stalled.entry
  have heard : r.users.session.step (.recv eighth.encode) = some { r.users.session with
      log := r.users.session.log ++ [eighth], reader := .offer 1 0 eighth.payload } := by
    simp only [Session.step, stalled.reader, eighth_short, parse_eighth, and_self, if_true,
      Session.dispatch, entry]
    rfl
  obtain ⟨mid, first, session, io, granted⟩ := link_moves heard
  have free : ¬ inboxFrames ≤ (mid.users.session.arena 0).inbox.len := by
    simp only [session, Channel.len, stalled.accepted, stalled.taken, List.length_replicate, inboxFrames]
    omega
  have pushed : mid.users.session.step .advance = some { mid.users.session.modify 0 fun st =>
      { st with inbox := (mid.users.session.arena 0).inbox.push eighth.payload } with
      reader := .idle } := by
    have opened : (mid.users.session.arena 0).inbox.isOpen = true := by
      rw [session]
      exact stalled.opened
    have reading : mid.users.session.reader = .offer 1 0 eighth.payload := by rw [session]
    simp [Session.step, reading, Channel.trySend, opened, free]
  obtain ⟨next, second, session', io', granted'⟩ := link_moves pushed
  refine ⟨next, run_cons.mpr ⟨mid, first, run_cons.mpr ⟨next, second, rfl⟩⟩, ?_, ⟨trivial, trivial⟩, ?_⟩
  · refine ⟨?_, ?_, ?_, ?_, ?_, ?_, ?_, ?_, ?_, io'.trans (io.trans stalled.io),
      granted'.trans (granted.trans stalled.granted)⟩
    · rw [session']
    · rw [session', session]
      exact stalled.entry
    · simpa [session', session, Session.modify] using stalled.named
    · simpa [session', session, Session.modify] using stalled.opened
    · simp [session', session, Session.modify, stalled.accepted, List.replicate_succ']
    · simpa [session', session, Session.modify] using stalled.taken
    · rw [session', session]
      exact stalled.full
    · rw [session', session]
      exact stalled.live
    · rw [session', session]
      exact stalled.fed
  · intro state stepped
    obtain rfl : mid = state := Option.some.inj (first.symm.trans stepped)
    refine ⟨⟨?_, trivial⟩, fun _ _ => trivial⟩
    have stream : mid.io.stream = 0 := by rw [io, stalled.io]
    simp only [IoRun.Respected, granted, stalled.granted, IoRun.inbox, session, stream,
      stalled.accepted, Reader.offered, if_true, ← List.replicate_succ', List.length_flatten,
      List.map_replicate, List.sum_replicate_nat, eighth_length, window]
    omega

/-- A read of one chunk; what is due the full outbox refuses. -/
private def refusedRead : List RunAct := [.own (.pollRead (window / 8)), .own (.proceed false)]

private theorem returnCredit_refused (s : Session) (io : StreamIo) :
    s.returnCredit io false = some (s, io) := by
  simp [Session.returnCredit, Session.flushCredit, Session.trySends]

private theorem returnCredit_granted {io : StreamIo} (due : grantThreshold ≤ io.creditDue)
    (live : s.out.isOpen = true) (room : s.out.len < outboxFrames) :
    s.returnCredit io true =
      some ({ s with out := s.out.push (.grant (s.arena io.stream).id io.creditDue) },
        { io with creditDue := 0 }) := by
  have queued : s.enqueue (.grant (s.arena io.stream).id io.creditDue) =
      some { s with out := s.out.push (.grant (s.arena io.stream).id io.creditDue) } :=
    if_pos ⟨live, room⟩
  have owed : io.creditDue ≠ 0 := by
    have least : 0 < grantThreshold := by decide
    omega
  simp [Session.returnCredit, Nat.not_lt.mpr due, Session.flushCredit, owed, Session.trySends, queued]

/-- The next chunk is taken and counted as due. -/
private theorem pollRead_takes {came read : Nat} (few : read < came) (most : came ≤ 8)
    (accepted : (r.users.session.arena 0).inbox.accepted = List.replicate came eighth.payload)
    (taken : (r.users.session.arena 0).inbox.taken = read)
    (io : r.io = { stream := 0, creditDue := read * (window / 8) }) :
    ∃ after, r.users.session.take 0 = some (eighth.payload, after) ∧
      r.step (.own (.pollRead (window / 8))) = some (r.after (.pollRead (window / 8)) after
        { stream := 0, creditDue := (read + 1) * (window / 8), call := .crediting eighth.payload } none) ∧
      ¬ r.inbox.queue = [] := by
  have queue : (r.users.session.arena 0).inbox.queue =
      eighth.payload :: List.replicate (came - 1 - read) eighth.payload := by
    rw [Channel.queue, accepted, taken, List.drop_replicate, ← List.replicate_succ]
    exact congrArg (List.replicate · eighth.payload) (by omega)
  obtain ⟨after, took⟩ : ∃ after, r.users.session.take 0 = some (eighth.payload, after) := by
    simp [Session.take, Channel.recv, queue]
  have hand : r.io.hand eighth.payload (window / 8) =
      { stream := 0, creditDue := (read + 1) * (window / 8), call := .crediting eighth.payload } := by
    have whole : eighth.payload.take (window / 8) = eighth.payload :=
      List.take_of_length_le (Nat.le_of_eq eighth_length)
    have small : (read + 1) * (window / 8) < 2 ^ 32 := by
      simp only [window]
      omega
    simpa [io, StreamIo.hand, eighth_length, whole, ← Nat.succ_mul] using small
  refine ⟨after, took, ?_, ?_⟩
  · rw [← hand]
    simp [IoRun.step, Session.ioStep, io, Session.pollRead, took]
  · simp [IoRun.inbox, io, queue]

private theorem refusedRead_stall {came read : Nat} (few : read < came) (most : came ≤ 8)
    (stalled : Stalled came read r) :
    ∃ next, run IoRun.step r refusedRead = some next ∧ Stalled came (read + 1) next ∧
      (grantThreshold ≤ (read + 1) * (window / 8) → next.refused = true) ∧
      Meets IoRun.step (fun r act => r.Respected act ∧ r.Retried act) r refusedRead := by
  obtain ⟨after, took, first, waiting⟩ :=
    pollRead_takes few most stalled.accepted stalled.taken stalled.io
  obtain ⟨advanced, -, -, taken⟩ := Channel.recv_eq_some _ (take_inbox took)
  have alike := alike_take took
  generalize reached : r.after (.pollRead (window / 8)) after _ none = mid at first
  have second : mid.step (.own (.proceed false)) = some (mid.after (.proceed false) after
      { mid.io with call := .idle } (some (.read eighth.payload))) := by
    subst reached
    simp [IoRun.step, Session.ioStep, Session.ioProceed, IoRun.after, returnCredit_refused]
  refine ⟨_, run_cons.mpr ⟨mid, first, run_cons.mpr ⟨_, second, rfl⟩⟩, ?_, fun due => ?_,
    ⟨trivial, fun _ _ empty => absurd empty waiting⟩, fun _ _ => ⟨⟨trivial, trivial⟩, fun _ _ => trivial⟩⟩
  · subst reached
    refine ⟨?_, ?_, ?_, ?_, ?_, ?_, ?_, ?_, ?_, ?_, ?_⟩
    · exact (quiet_take took).reader.trans stalled.reader
    · exact (congrFun alike.streams 1).trans stalled.entry
    · exact (alike.id 0).trans stalled.named
    · show (after.arena 0).inbox.isOpen = true
      rw [advanced]
      exact stalled.opened
    · show (after.arena 0).inbox.accepted = _
      rw [advanced]
      exact stalled.accepted
    · exact taken.trans (by rw [stalled.taken])
    · show after.out.len = outboxFrames
      rw [take_out took]
      exact stalled.full
    · show after.out.isOpen = true
      rw [take_out took]
      exact stalled.live
    · show after.fed = after.out.taken
      rw [take_out took, ← stalled.fed]
      exact take_fed took
    · simp [IoRun.after]
    · simp [IoRun.after, stalled.granted, ungranted_of_same, take_out took]
  · subst reached
    simp [IoRun.after, IoRun.refusedAfter, due]

/-- Chunks come while the outbox is full. -/
private theorem chunks_come {came : Nat} (most : came ≤ 8) :
    ∃ r, run IoRun.step (.start .opened 0) (echoes ++ (List.replicate came delivers).flatten) = some r ∧
      Stalled came 0 r ∧ Meets IoRun.step (fun r act => r.Respected act ∧ r.Retried act) (.start .opened 0)
        (echoes ++ (List.replicate came delivers).flatten) := by
  obtain ⟨r, stall, empty⟩ := echoes_stall
  obtain ⟨full, filled, waiting, met⟩ := run_repeated (Stalled · 0)
    (fun _ _ few stalled => delivers_stall few stalled) empty came (by omega)
  rw [Nat.zero_add] at waiting
  refine ⟨full, run_append.mpr ⟨r, stall, filled⟩, waiting, ?_⟩
  refine Meets.append (meets_of_mem fun act member _ => ?_) stall met
  obtain ⟨block, again, member⟩ := List.mem_flatten.mp member
  obtain rfl := List.eq_of_mem_replicate again
  obtain rfl | rfl : act = _ ∨ act = _ := by simpa using member
  · exact ⟨trivial, trivial⟩
  · exact ⟨trivial, trivial⟩

/-- And are read, with nothing granted. -/
private theorem chunks_read {came : Nat} (most : came ≤ 8) (stalled : Stalled came 0 r) (count : Nat)
    (enough : count ≤ came) :
    ∃ next, run IoRun.step r (List.replicate count refusedRead).flatten = some next ∧
      Stalled came count next ∧ Meets IoRun.step (fun r act => r.Respected act ∧ r.Retried act) r
        (List.replicate count refusedRead).flatten := by
  have once (read : Nat) (r : IoRun) (few : read < came) (stalled : Stalled came read r) :
      ∃ next, run IoRun.step r refusedRead = some next ∧ Stalled came (read + 1) next ∧
        Meets IoRun.step (fun r act => r.Respected act ∧ r.Retried act) r refusedRead := by
    obtain ⟨next, ran, more, -, met⟩ := refusedRead_stall few most stalled
    exact ⟨next, ran, more, met⟩
  have all := run_repeated (Stalled came) once stalled count (by omega)
  rwa [Nat.zero_add] at all

/-- The writer takes a frame out of the full outbox. -/
private theorem outbox_gives {came read : Nat} (stalled : Stalled came read r) :
    ∃ mid, r.step (.other (.link (.takeBatch 1))) = some mid ∧
      mid.users.session = { r.users.session with out := r.users.session.out.advance 1 } ∧
      mid.io = r.io ∧ mid.users.session.out.isOpen = true ∧ mid.users.session.out.len < outboxFrames := by
  have batch : r.users.session.step (.takeBatch 1) =
      some { r.users.session with out := r.users.session.out.advance 1 } := by
    simp [Session.step, stalled.fed, stalled.full, stalled.live, writeBatch, outboxFrames]
  obtain ⟨mid, freed, session, io, -⟩ := link_moves batch
  refine ⟨mid, freed, session, io, ?_, ?_⟩
  · rw [session]
    exact stalled.live
  · have full := stalled.full
    simp only [Channel.len, outboxFrames] at full
    simp only [session, Channel.len, Channel.advance, outboxFrames]
    omega

/-- A reader who finds nothing on a live stream is parked. -/
private theorem pollRead_parks (room : Nat) (io : r.io = { stream := n })
    (nothing : (r.users.session.arena n).inbox.queue = []) (fed : r.users.session.Feeds n) :
    r.step (.own (.pollRead room)) =
      some (r.after (.pollRead room) r.users.session { stream := n } (some .pending)) := by
  have empty : r.users.session.take n = none := by simp [Session.take, Channel.recv, nothing]
  simp [IoRun.step, Session.ioStep, io, Session.pollRead, empty, fed]

/-- Once the writer has taken a frame, the grant that was refused goes out with the
next read. -/
private theorem refused_grant_is_taken (stalled : Stalled 5 4 r) :
    ∃ next, run IoRun.step r [.other (.link (.takeBatch 1)), .own (.pollRead (window / 8)),
        .own (.proceed true), .own (.pollRead 1)] = some next ∧
      next.last = some .pending ∧ next.io.creditDue = 0 ∧ next.io.inHand = [] ∧
      Meets IoRun.step (fun r act => r.Respected act ∧ r.Retried act) r
        [.other (.link (.takeBatch 1)), .own (.pollRead (window / 8)), .own (.proceed true),
          .own (.pollRead 1)] := by
  obtain ⟨mid, freed, session, io, live, room⟩ := outbox_gives stalled
  have accepted : (mid.users.session.arena 0).inbox.accepted = List.replicate 5 eighth.payload := by
    rw [session]
    exact stalled.accepted
  have taken : (mid.users.session.arena 0).inbox.taken = 4 := by
    rw [session]
    exact stalled.taken
  obtain ⟨after, took, first, waiting⟩ :=
    pollRead_takes (show 4 < 5 by decide) (by decide) accepted taken (io.trans stalled.io)
  obtain ⟨advanced, -, -, last⟩ := Channel.recv_eq_some _ (take_inbox took)
  have alike := alike_take took
  generalize reached : mid.after (.pollRead (window / 8)) after _ none = mid₂ at first
  -- The place the writer has freed takes what is due.
  have due : grantThreshold ≤ 5 * (window / 8) := by decide
  let owing : StreamIo := { stream := 0, creditDue := 5 * (window / 8), call := .crediting eighth.payload }
  have out := take_out took
  have granted := returnCredit_granted (show grantThreshold ≤ owing.creditDue from due)
    (out.symm ▸ live) (out.symm ▸ room)
  generalize queued : ({ after with out := after.out.push _ } : Session) = paid at granted
  let settled : IoRun := mid₂.after (.proceed true) paid { stream := 0 } (some (.read eighth.payload))
  have second : mid₂.step (.own (.proceed true)) = some settled := by
    simp only [settled]
    subst reached
    simp [IoRun.step, Session.ioStep, Session.ioProceed, IoRun.after, owing, granted]
  have calm : settled.refused = false := by
    simp only [settled]
    subst reached
    simp [IoRun.after, IoRun.refusedAfter, due]
  -- That was the last chunk, and the bridge may still send.
  have nothing : (paid.arena 0).inbox.queue = [] := by
    subst queued
    show (after.arena 0).inbox.queue = []
    rw [Channel.queue, last, taken, advanced, Channel.advance_accepted, accepted]
    rfl
  have fed : paid.Feeds 0 := by
    subst queued
    have entry : after.streams 1 = some 0 := by
      rw [alike.streams, session]
      exact stalled.entry
    have named : (after.arena 0).id = 1 := by
      rw [alike.id, session]
      exact stalled.named
    exact .inl ((congrArg after.streams named).trans entry)
  have third : settled.step (.own (.pollRead 1)) = _ := pollRead_parks 1 rfl nothing fed
  refine ⟨_, run_cons.mpr ⟨mid, freed, run_cons.mpr ⟨mid₂, first, run_cons.mpr ⟨settled, second,
    run_cons.mpr ⟨_, third, rfl⟩⟩⟩⟩, rfl, rfl, rfl, ⟨trivial, trivial⟩, fun next stepped => ?_⟩
  cases freed.symm.trans stepped
  refine ⟨⟨trivial, fun _ _ empty => absurd empty waiting⟩, fun next stepped => ?_⟩
  cases first.symm.trans stepped
  refine ⟨⟨trivial, trivial⟩, fun next stepped => ?_⟩
  cases second.symm.trans stepped
  exact ⟨⟨trivial, fun _ _ _ _ => calm⟩, fun _ _ => trivial⟩

/-- The grant that comes due with half the window read is refused by a full outbox,
and taken with the next read; only then is the reader parked. -/
theorem poll_read_hands_back_credit_retried :
    ∃ before after mid t, run IoRun.step (.start .opened 0) before = some mid ∧ mid.refused = true ∧
      mid.io.creditDue = grantThreshold ∧ run IoRun.step mid after = some t ∧ t.last = some .pending ∧
      t.io.creditDue = 0 ∧ t.granted = t.returned.length ∧
      Meets IoRun.step IoRun.Unstarved (.start .opened 0) (before ++ after) := by
  have checked : 0 < Users.opened.session.created ∧ (Users.opened.session.arena 0).inbox.taken = 0 ∧
      (Users.opened.session.arena 0).inbox.accepted.flatten.length ≤ window := by decide +kernel
  obtain ⟨known, untouched, within⟩ := checked
  obtain ⟨full, came, stalled, met⟩ := chunks_come (show 5 ≤ 8 by decide)
  obtain ⟨three, read, stalled', met'⟩ := chunks_read (by decide) stalled 3 (by decide)
  obtain ⟨mid, ran, half, due, met''⟩ := refusedRead_stall (by decide) (by decide) stalled'
  obtain ⟨t, rest, parked, paid, nothing, last⟩ := refused_grant_is_taken half
  have whole := run_append.mpr ⟨full, came, run_append.mpr ⟨three, read, ran⟩⟩
  have both := (met.append came (met'.append read met'')).append whole last
  obtain ⟨owed, fed⟩ := poll_read_hands_back_credit Users.opened_linked known untouched within
    (both.mono fun _ _ holds => holds.1) (run_append.mpr ⟨mid, whole, rest⟩)
  refine ⟨_, _, mid, t, whole, due (by decide), ?_, rest, parked, paid, ?_,
    fed.mpr (both.mono fun _ _ holds => holds.2)⟩
  · rw [half.io]
    decide
  · rw [paid, nothing] at owed
    exact owed

/-- The peer has used its window up, every grant was refused by a full outbox, and
the reader that nothing but the peer can wake is parked: neither end can go on. -/
theorem refused_grants_starve_the_peer :
    ∃ actions t next, run IoRun.step (.start .opened 0) actions = some t ∧
      Meets IoRun.step IoRun.Respected (.start .opened 0) actions ∧
      t.step (.own (.pollRead 1)) = some next ∧ next.last = some .pending ∧
      next.io.creditDue = window ∧ next.granted = 0 ∧
      next.inbox.accepted.flatten.length = window ∧ ¬ t.Unstarved (.own (.pollRead 1)) := by
  obtain ⟨full, came, waiting, met⟩ := chunks_come (Nat.le_refl 8)
  obtain ⟨t, emptied, parked, met'⟩ := chunks_read (Nat.le_refl 8) waiting 8 (Nat.le_refl 8)
  have queue : (t.users.session.arena 0).inbox.queue = [] := by
    rw [Channel.queue, parked.accepted, parked.taken, List.drop_replicate]
    rfl
  have nothing : t.users.session.take 0 = none := by simp [Session.take, Channel.recv, queue]
  have fed : t.users.session.Feeds 0 := .inl (by rw [parked.named]; exact parked.entry)
  have stepped : t.step (.own (.pollRead 1)) =
      some (t.after (.pollRead 1) t.users.session t.io (some .pending)) := by
    simp [IoRun.step, Session.ioStep, parked.io, Session.pollRead, nothing, fed]
  have due : t.io.creditDue = window := by
    rw [parked.io]
    decide
  refine ⟨_, t, _, run_append.mpr ⟨full, came, emptied⟩, (met.append came met').mono fun _ _ holds => holds.1,
    stepped, rfl, due, ?_, ?_, fun unstarved => ?_⟩
  · simp [IoRun.after, parked.granted, ungranted_of_same]
  · have stream : t.io.stream = 0 := by rw [parked.io]
    simp only [IoRun.inbox, IoRun.after, stream, parked.accepted, List.length_flatten,
      List.map_replicate, List.sum_replicate_nat, eighth_length]
    decide
  · have low := (unstarved 1 _ rfl stepped rfl).1
    have owed : t.io.creditDue < grantThreshold := low
    rw [due] at owed
    exact absurd owed (by decide)

end DshProxy.Mux

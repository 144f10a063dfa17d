import DshProxy.CleanClose
import DshProxy.MuxStreamIo

/-! The read side of `MuxStreamIo`. A chunk passes from the inbox of the stream
through the tail that did not fit the reader's buffer, and a call that fills no byte
is the end of the file to whoever reads. -/
namespace DshProxy.Mux
open Sync Wire ByteOrder Transitions

/-- What the call under way has put into the reader's buffer. -/
def StreamIo.inHand (io : StreamIo) : Bytes :=
  match io.call with
  | .crediting bytes => bytes
  | _ => []

def IoRun.inbox (r : IoRun) : Channel Bytes := (r.users.session.arena r.io.stream).inbox

variable {s s' : Session} {io io' : StreamIo} {ret : Option IoReturn} {r r' : IoRun} {n : Nat}

theorem take_inbox {chunk : Bytes} (took : s.take n = some (chunk, s')) :
    (s.arena n).inbox.recv = some (chunk, (s'.arena n).inbox) := by
  obtain ⟨⟨first, inbox⟩, got, same⟩ := Option.map_eq_some_iff.mp took
  cases same
  simpa [Session.modify] using got

theorem hangUp_taken (s : Session) (stream : Nat) :
    ((s.hangUp stream).arena n).inbox.taken = (s.arena n).inbox.taken :=
  modify_kept s (fun st => st.inbox.taken) rfl n

private theorem openStep_taken {stage next : Opening} (stepped : s.openStep stage = some (s', next))
    (known : n < s.created) : (s'.arena n).inbox.taken = (s.arena n).inbox.taken := by
  cases stage with
  | reserve =>
    simp only [Session.openStep, Session.reserve] at stepped
    split at stepped
    · rename_i got
      split at got <;> cases got
      cases stepped
      rfl
    · cases stepped
      rfl
  | allocate =>
    cases stepped
    rfl
  | insert id =>
    cases stepped
    rw [arena_insert s id known]
  | announce stream => rw [sends_arena stepped]
  | giveUp stream =>
    cases stepped
    rw [hangUp_taken, arena_remove]
  | refused => cases stepped
  | opened stream => cases stepped

private theorem begin_taken {act : TaskAct} {task : Task} (begun : s.begin act = some (s', task))
    (other : act ≠ .recv n) : (s'.arena n).inbox.taken = (s.arena n).inbox.taken := by
  cases act with
  | tryOpen =>
    cases begun
    rfl
  | send stream data =>
    cases (Option.ite_none_right_eq_some.mp begun).2
    rfl
  | grant stream bytes =>
    cases (Option.ite_none_right_eq_some.mp begun).2
    rfl
  | close stream =>
    cases (Option.ite_none_right_eq_some.mp begun).2
    rw [arena_remove]
  | closeStream stream sent =>
    obtain ⟨mid, did, same⟩ := Option.map_eq_some_iff.mp (Option.ite_none_right_eq_some.mp begun).2
    cases same
    obtain ⟨-, queued⟩ | ⟨-, rfl⟩ := closeStream_cases did
    · rw [enqueue_arena queued, inbox_removeAndClose]
    · rw [inbox_removeAndClose]
  | flushCredit stream bytes sent =>
    obtain ⟨mid, did, same⟩ := Option.map_eq_some_iff.mp (Option.ite_none_right_eq_some.mp begun).2
    cases same
    cases sent with
    | true => rw [enqueue_arena did]
    | false =>
      cases did
      rfl
  | recv stream =>
    obtain ⟨⟨chunk, mid⟩, did, same⟩ :=
      Option.map_eq_some_iff.mp (Option.ite_none_right_eq_some.mp begun).2
    cases same
    obtain ⟨⟨first, inbox⟩, -, same⟩ := Option.map_eq_some_iff.mp did
    cases same
    have elsewhere : n ≠ stream := fun same => other (by rw [same])
    rw [arena_modify_other s _ elsewhere]
  | hangUp stream =>
    cases (Option.ite_none_right_eq_some.mp begun).2
    exact hangUp_taken s stream
  | proceed => cases begun

/-- Only a receive takes a chunk out of an inbox. -/
theorem taskStep_taken {task task' : Task} {act : TaskAct}
    (stepped : s.taskStep task act = some (s', task')) (known : n < s.created)
    (other : act ≠ .recv n) : (s'.arena n).inbox.taken = (s.arena n).inbox.taken := by
  unfold Session.taskStep at stepped
  split at stepped
  · cases task with
    | idle => cases stepped
    | opening stage =>
      obtain ⟨⟨mid, next⟩, opened, same⟩ := Option.map_eq_some_iff.mp stepped
      cases same
      exact openStep_taken opened known
    | sending stream stage =>
      obtain ⟨⟨mid, next⟩, sent, same⟩ := Option.map_eq_some_iff.mp stepped
      cases same
      rw [sendStep_inbox sent]
    | granting stream bytes => rw [sends_arena stepped]
    | closing id => rw [sends_arena stepped]
  · exact begin_taken (Option.ite_none_right_eq_some.mp stepped).2 other

/-- What a piece of the stream's own does to the session, a task could have done. -/
theorem IoMove.asTask {own : IoAct} (move : IoMove s io own s' io' ret) (known : io.stream < s.created) :
    s' = s ∨ ∃ task act task', s.taskStep task act = some (s', task') ∧
      ((∀ stream, act ≠ .recv stream) ∨ ∃ room, own = .pollRead room) := by
  have grants {ok : Bool} {io' : StreamIo} (did : s.flushCredit io ok = some (s', io')) :
      s' = s ∨ ∃ task act task', s.taskStep task act = some (s', task') ∧
        ((∀ stream, act ≠ .recv stream) ∨ ∃ room, own = .pollRead room) := by
    obtain ⟨rfl, -⟩ | ⟨-, -, -, queued⟩ := flushCredit_cases did
    · exact .inl rfl
    · refine .inr ⟨.idle, .flushCredit io.stream io.creditDue true, .idle, ?_, .inl (by simp)⟩
      simp [Session.taskStep, Task.free, Session.begin, known, Session.trySends, queued]
  cases move with
  | receives room chunk _ _ took =>
    refine .inr ⟨.idle, .recv io.stream, .idle, ?_, .inr ⟨room, rfl⟩⟩
    simp [Session.taskStep, Task.free, Session.begin, known, took]
  | credits bytes ok call did =>
    obtain ⟨-, rfl, -⟩ | ⟨-, did⟩ := returnCredit_cases did
    · exact .inl rfl
    · exact grants did
  | finishes ok call did => exact grants did
  | settles result ok call did => exact grants did
  | closes result ok call did =>
    refine .inr ⟨.idle, .closeStream io.stream ok, .idle, ?_, .inl (by simp)⟩
    simp [Session.taskStep, Task.free, Session.begin, known, did]
  | hangs ok call =>
    refine .inr ⟨.idle, .hangUp io.stream, .idle, ?_, .inl (by simp)⟩
    simp [Session.taskStep, Task.free, Session.begin, known]
  | polls cx shutdown stage next call busy did =>
    refine .inr ⟨.sending io.stream stage, .proceed, .sending io.stream next, ?_, .inl (by simp)⟩
    simp [Session.taskStep, Session.proceed, did]
  | _ => exact .inl rfl

theorem IoMove.stream {own : IoAct} (move : IoMove s io own s' io' ret) : io'.stream = io.stream := by
  cases move with
  | credits bytes ok call did => rw [returnCredit_same did]
  | finishes ok call did => rw [flushCredit_same did]
  | settles result ok call did => rw [flushCredit_same did]
  | flushed cx shutdown => cases shutdown <;> rfl
  | breaks cx shutdown => cases shutdown <;> rfl
  | _ => rfl

theorem IoMove.quiet {own : IoAct} (move : IoMove s io own s' io' ret) (known : io.stream < s.created) :
    Quiet s s' := by
  obtain rfl | ⟨task, act, task', did, -⟩ := move.asTask known
  · exact Quiet.refl _
  · exact quiet_taskStep did

theorem IoMove.wired {own : IoAct} (move : IoMove s io own s' io' ret) (known : io.stream < s.created)
    (wired : Wired s) : Wired s' := by
  obtain rfl | ⟨task, act, task', did, -⟩ := move.asTask known
  · exact wired
  · have stepped : ({ session := s, tasks := fun _ => task } : Users).step (.task 0 act) =
        some { session := s', tasks := Function.update (fun _ => task) 0 task' } := by
      simp [Users.step, did]
    exact users_wired (u := { session := s, tasks := fun _ => task }) wired stepped

/-- Only `poll_read` takes a chunk out of the inbox. -/
theorem IoMove.taken {own : IoAct} (move : IoMove s io own s' io' ret) (known : io.stream < s.created)
    (other : ∀ room, own ≠ .pollRead room) :
    (s'.arena io.stream).inbox.taken = (s.arena io.stream).inbox.taken := by
  obtain rfl | ⟨task, act, task', did, unread | ⟨room, reads⟩⟩ := move.asTask known
  · rfl
  · exact taskStep_taken did known (unread io.stream)
  · exact absurd reads (other room)

/-- All that everyone else can do to the stream is to deliver a chunk. -/
theorem others_inbox {u next : Users} {act : UsersAct} (avoids : u.avoids n act = true)
    (stepped : u.step act = some next) (known : n < u.session.created) :
    n < next.session.created ∧ (next.session.arena n).id = (u.session.arena n).id ∧
    (next.session.arena n).inbox.taken = (u.session.arena n).inbox.taken ∧
    ((next.session.arena n).inbox.accepted = (u.session.arena n).inbox.accepted ∨
      ∃ id body, act = .link .advance ∧ u.session.reader = .offer id n body ∧
        (next.session.arena n).inbox.accepted = (u.session.arena n).inbox.accepted ++ [body]) := by
  cases act with
  | link act =>
    obtain ⟨session, did, rfl⟩ := Option.map_eq_some_iff.mp stepped
    refine ⟨Nat.lt_of_lt_of_le known (step_created did), (step_named did known).1, ?_⟩
    obtain same | ⟨id, body, rfl, reading, -, -, pushed⟩ := step_inbox did known
    · exact ⟨by rw [same], .inl (by rw [same])⟩
    · exact ⟨by rw [pushed, Channel.push_taken],
        .inr ⟨id, body, rfl, reading, by rw [pushed, Channel.push_accepted]⟩⟩
  | task name act =>
    obtain ⟨⟨session, task⟩, did, rfl⟩ := Option.map_eq_some_iff.mp stepped
    have quiet := quiet_taskStep did
    refine ⟨Nat.lt_of_lt_of_le known quiet.created, quiet.id n known, ?_, .inl (quiet.accepted n known)⟩
    refine taskStep_taken did known ?_
    rintro rfl
    simp [Users.avoids, TaskAct.stream] at avoids

/-- What holds of the read side in every state. -/
structure IoRun.Reads (r : IoRun) : Prop where
  known : r.io.stream < r.users.session.created
  wired : Wired r.users.session
  whole : r.returned ++ r.io.inHand ++ r.io.inbox.getD [] =
    (r.inbox.accepted.take r.inbox.taken).flatten
  tail : r.io.inbox ≠ some []
  plain : ∀ bytes, r.io.call ≠ .settling (.read bytes) ∧ r.io.call ≠ .closing (.read bytes)

/-- The bytes returned are a front part of those queued. -/
theorem IoRun.Reads.front (reads : r.Reads) : r.returned <+: r.inbox.accepted.flatten := by
  refine ⟨r.io.inHand ++ r.io.inbox.getD [] ++ r.inbox.queue.flatten, ?_⟩
  rw [← List.append_assoc, ← List.append_assoc, reads.whole, ← List.flatten_append,
    Channel.take_append_queue]

/-- What a chunk is cut into: the bytes handed over and the tail. -/
theorem hand_cut (io : StreamIo) (chunk : Bytes) (room : Nat) :
    (io.hand chunk room).inHand ++ (io.hand chunk room).inbox.getD [] = chunk := by
  simp only [StreamIo.hand, StreamIo.inHand]
  split
  · exact List.take_append_drop _ _
  · rename_i all
    rw [Option.getD_none, List.append_nil]
    exact List.take_of_length_le (by omega)

theorem hand_tail (io : StreamIo) (chunk : Bytes) (room : Nat) : (io.hand chunk room).inbox ≠ some [] := by
  simp only [StreamIo.hand]
  split
  · rename_i more
    intro same
    have length := congrArg List.length (Option.some.inj same)
    rw [List.length_drop, List.length_nil] at length
    omega
  · exact Option.some_ne_none _ |>.symm

/-- A piece that leaves the inbox alone passes on what is in hand. -/
private theorem reads_still (reads : r.Reads) {own : IoAct}
    (move : IoMove r.users.session r.io own s' io' ret)
    (taken : (s'.arena r.io.stream).inbox.taken = r.inbox.taken) (tail : io'.inbox = r.io.inbox)
    (handed : r.io.inHand = IoReturn.bytes ret ++ io'.inHand)
    (plain : ∀ bytes, io'.call ≠ .settling (.read bytes) ∧ io'.call ≠ .closing (.read bytes)) :
    (r.after own s' io' ret).Reads := by
  have stream := move.stream
  have quiet := move.quiet reads.known
  have accepted : (s'.arena r.io.stream).inbox.accepted = r.inbox.accepted :=
    quiet.accepted _ reads.known
  refine ⟨?_, move.wired reads.known reads.wired, ?_, ?_, plain⟩
  · exact stream ▸ Nat.lt_of_lt_of_le reads.known quiet.created
  · have whole := reads.whole
    rw [handed] at whole
    simp only [IoRun.after, IoRun.inbox, stream, taken, accepted, tail, List.append_assoc] at whole ⊢
    exact whole
  · exact tail ▸ reads.tail

/-- A chunk is handed over, from the tail or from the inbox. -/
private theorem reads_hand (reads : r.Reads) {room : Nat} {chunk : Bytes}
    (move : IoMove r.users.session r.io (.pollRead room) s' (r.io.hand chunk room) none)
    (taken : ((s'.arena r.io.stream).inbox.accepted.take (s'.arena r.io.stream).inbox.taken).flatten =
      r.returned ++ chunk) :
    (r.after (.pollRead room) s' (r.io.hand chunk room) none).Reads := by
  refine ⟨?_, move.wired reads.known reads.wired, ?_, hand_tail r.io chunk room, ?_⟩
  · exact Nat.lt_of_lt_of_le reads.known (move.quiet reads.known).created
  · have cut := hand_cut r.io chunk room
    rw [List.append_assoc]
    simp only [IoRun.after, IoReturn.bytes, List.append_nil, cut]
    exact taken.symm
  · simp [IoRun.after, StreamIo.hand]

/-- Every piece of the stream's own keeps the read side. -/
theorem IoMove.reads (reads : r.Reads) {own : IoAct} (move : IoMove r.users.session r.io own s' io' ret) :
    (r.after own s' io' ret).Reads := by
  have whole := reads.whole
  have plain := reads.plain
  have taken := move.taken reads.known
  have still := reads_still reads move
  cases move with
  | drains room chunk idle held =>
    refine reads_hand reads (.drains room chunk idle held) ?_
    simpa [StreamIo.inHand, idle, held, IoRun.inbox] using whole.symm
  | receives room chunk idle empty took =>
    refine reads_hand reads (.receives room chunk idle empty took) ?_
    obtain ⟨same, -, grown, -⟩ := Channel.recv_eq_some _ (take_inbox took)
    have before : r.returned = (r.inbox.accepted.take r.inbox.taken).flatten := by
      simpa [StreamIo.inHand, idle, empty] using whole
    rw [show (s'.arena r.io.stream).inbox.accepted = r.inbox.accepted by rw [same]; rfl]
    rw [show r.inbox.accepted.take _ = _ from grown, List.flatten_append, before]
    simp [IoRun.inbox]
  | parks room idle => exact still rfl rfl (by simp [IoReturn.bytes]) plain
  | ends room idle => exact still rfl rfl (by simp [StreamIo.inHand, idle, IoReturn.bytes]) (by simp)
  | refuses cx data stage idle => exact still rfl rfl (by simp [IoReturn.bytes]) plain
  | buffers cx data idle => exact still rfl rfl (by simp [StreamIo.inHand, IoReturn.bytes]) plain
  | stages cx data idle => exact still rfl rfl (by simp [StreamIo.inHand, IoReturn.bytes]) plain
  | flush cx idle => exact still rfl rfl (by simp [StreamIo.inHand, idle, IoReturn.bytes]) (by simp)
  | shutdown cx idle => exact still rfl rfl (by simp [StreamIo.inHand, idle, IoReturn.bytes]) (by simp)
  | drop idle =>
    exact still rfl rfl (by simp [StreamIo.inHand, idle, IoReturn.bytes]) (by simp)
  | credits bytes ok call did =>
    rw [returnCredit_same did]
    rw [returnCredit_same did] at still
    exact still (taken (by simp)) rfl (by simp [StreamIo.inHand, call, IoReturn.bytes]) (by simp)
  | finishes ok call did =>
    rw [flushCredit_same did]
    rw [flushCredit_same did] at still
    exact still (taken (by simp)) rfl (by simp [StreamIo.inHand, call, IoReturn.bytes]) (by simp)
  | settles result ok call did =>
    rw [flushCredit_same did]
    rw [flushCredit_same did] at still
    refine still (taken (by simp)) rfl (by simp [StreamIo.inHand, call, IoReturn.bytes]) ?_
    simpa [call] using plain
  | closes result ok call did =>
    cases result with
    | read bytes => exact absurd call (plain bytes).2
    | _ =>
      exact still (taken (by simp)) rfl
        (by simp [StreamIo.inHand, call, IoReturn.next, IoReturn.bytes]) (by simp [IoReturn.next])
  | hangs ok call =>
    exact still (taken (by simp)) rfl (by simp [StreamIo.inHand, call, IoReturn.bytes]) (by simp)
  | flushed cx shutdown ok call =>
    cases shutdown <;>
    exact still rfl rfl (by simp [StreamIo.flushed, StreamIo.inHand, call, IoReturn.bytes])
      (by simp [StreamIo.flushed])
  | coalesces cx shutdown ok call =>
    exact still rfl rfl (by simp [StreamIo.inHand, call, IoReturn.bytes]) (by simp)
  | sent cx shutdown ok call =>
    exact still rfl rfl (by simp [StreamIo.inHand, IoReturn.bytes]) plain
  | breaks cx shutdown ok call =>
    cases shutdown <;>
    exact still rfl rfl (by simp [StreamIo.flushed, StreamIo.inHand, call, IoReturn.bytes])
      (by simp [StreamIo.flushed])
  | polls cx shutdown stage next call =>
    exact still (taken (by simp)) rfl (by simp [StreamIo.inHand, IoReturn.bytes]) plain
  | waits cx shutdown stage call =>
    exact still rfl rfl (by simp [StreamIo.inHand, call, IoReturn.bytes]) (by simp)

/-- A chunk that is delivered waits behind those taken. -/
theorem taken_flatten_kept {before after : Channel Bytes} (taken : after.taken = before.taken)
    (grows : before.accepted <+: after.accepted) :
    (after.accepted.take after.taken).flatten = (before.accepted.take before.taken).flatten := by
  obtain ⟨more, grown⟩ := grows
  rw [← grown, taken, List.take_append_of_le_length before.within]

theorem IoRun.Reads.step (reads : r.Reads) {act : RunAct} (stepped : r.step act = some r') :
    r'.Reads := by
  obtain ⟨theirs, users, -, avoids, did, rfl⟩ | ⟨own, session, io, ret, -, move, rfl⟩ :=
    IoRun.step_cases stepped
  · obtain ⟨known, -, taken, accepted⟩ := others_inbox avoids did reads.known
    have grows : r.inbox.accepted <+: (users.session.arena r.io.stream).inbox.accepted := by
      obtain same | ⟨id, body, -, -, pushed⟩ := accepted
      · exact ⟨[], (List.append_nil _).trans same.symm⟩
      · exact ⟨[body], pushed.symm⟩
    refine ⟨known, users_wired reads.wired did, ?_, reads.tail, reads.plain⟩
    exact reads.whole.trans (taken_flatten_kept taken grows).symm
  · exact move.reads reads

theorem IoRun.Reads.start {u : Users} {n : Nat} (known : n < u.session.created)
    (wired : Wired u.session) (untouched : (u.session.arena n).inbox.taken = 0) :
    (IoRun.start u n).Reads := by
  refine ⟨known, wired, ?_, by simp [IoRun.start], by simp [IoRun.start]⟩
  simp [IoRun.start, IoRun.inbox, StreamIo.inHand, untouched]

/-- The stream has ended, and every byte queued on it has been returned. -/
def IoRun.Ended (r : IoRun) : Prop :=
  ¬ r.users.session.Feeds r.io.stream ∧ r.returned = r.inbox.accepted.flatten

/-- The call under way is a `poll_read` that fills no byte. -/
def IoRun.Hollow (r : IoRun) : Prop := r.io.call = .crediting [] ∨ r.io.call = .ending

/-- A `poll_read` fills no byte only if the stream has ended. -/
def IoRun.Honest (r : IoRun) (act : RunAct) : Prop :=
  ∀ room next, act = .own (.pollRead room) → r.step act = some next → next.Hollow → r.Ended

/-- A `poll_read` that takes a zero-length chunk finds the stream ended and nothing
but zero-length chunks behind that one. -/
def IoRun.Solid (r : IoRun) : RunAct → Prop
  | .own (.pollRead _) => r.io.call = .idle → r.io.inbox = none → r.inbox.queue.head? = some [] →
    ¬ r.users.session.Feeds r.io.stream ∧ r.inbox.queue.flatten = []
  | _ => True

instance (r : IoRun) : (act : RunAct) → Decidable (r.Solid act)
  | .own (.pollRead _) => inferInstanceAs (Decidable (_ → _ → _ → _))
  | .own (.pollWrite _ _) | .own (.pollFlush _) | .own (.pollShutdown _) | .own .drop
  | .own (.proceed _) | .other _ => isTrue trivial

/-- Room for a byte. -/
def RunAct.Roomy : RunAct → Prop
  | .own (.pollRead room) => 0 < room
  | _ => True

theorem take_none (nothing : s.take n = none) : (s.arena n).inbox.queue = [] := by
  have none := Option.map_eq_none_iff.mp nothing
  unfold Channel.recv at none
  split at none
  · assumption
  · cases none

theorem hand_hollow {chunk : Bytes} {room : Nat} (space : 0 < room) :
    (io.hand chunk room).call = .crediting [] ↔ chunk = [] := by
  simp only [StreamIo.hand, IoCall.crediting.injEq, List.take_eq_nil_iff]
  refine ⟨?_, .inr⟩
  rintro (nothing | nothing)
  · exact List.length_eq_zero_iff.mp (by omega)
  · exact nothing

/-- A `poll_read` fills no byte if it takes a zero-length chunk, or finds the end. -/
theorem IoRun.Reads.hollow (reads : r.Reads) {room : Nat} (space : 0 < room)
    (stepped : r.step (.own (.pollRead room)) = some r') :
    r.io.call = .idle ∧ (r'.Hollow ↔ r.io.inbox = none ∧ (r.inbox.queue.head? = some [] ∨
      r.inbox.queue = [] ∧ ¬ r.users.session.Feeds r.io.stream)) := by
  obtain ⟨_, _, other, -⟩ | ⟨own, session, io, ret, same, move, rfl⟩ := IoRun.step_cases stepped
  · cases other
  cases same
  cases move with
  | drains _ chunk idle held =>
    refine ⟨idle, iff_of_false ?_ (by simp [held])⟩
    rintro (hollow | ending)
    · exact reads.tail ((hand_hollow space).mp hollow ▸ held)
    · cases ending
  | receives _ chunk idle empty took =>
    obtain ⟨-, queue, -, -⟩ := Channel.recv_eq_some _ (take_inbox took)
    have first : r.inbox.queue.head? = some chunk := by
      rw [IoRun.inbox, queue]
      rfl
    have present : r.inbox.queue ≠ [] := by
      intro none
      rw [none] at first
      cases first
    refine ⟨idle, ?_⟩
    have hollow : (r.after (.pollRead room) session (r.io.hand chunk room) none).Hollow ↔ chunk = [] :=
      ⟨fun hollow => hollow.elim (hand_hollow space).mp (fun ending => nomatch ending),
        fun nothing => .inl ((hand_hollow space).mpr nothing)⟩
    rw [hollow]
    simp [empty, first, present]
  | parks _ idle empty nothing fed =>
    refine ⟨idle, iff_of_false ?_ ?_⟩
    · rintro (hollow | ending)
      · cases idle.symm.trans hollow
      · cases idle.symm.trans ending
    · rw [show r.inbox.queue = [] from take_none nothing]
      simp [fed]
  | ends _ idle empty nothing unfed =>
    refine ⟨idle, iff_of_true (.inr rfl) ⟨empty, .inr ⟨take_none nothing, unfed⟩⟩⟩

/-- With nothing in hand, everything has been returned if no byte is queued. -/
theorem IoRun.Reads.drained (reads : r.Reads) (idle : r.io.call = .idle) (empty : r.io.inbox = none) :
    r.returned = r.inbox.accepted.flatten ↔ r.inbox.queue.flatten = [] := by
  have whole : r.returned = (r.inbox.accepted.take r.inbox.taken).flatten := by
    simpa [StreamIo.inHand, idle, empty] using reads.whole
  rw [← r.inbox.take_append_queue, List.flatten_append, ← whole, List.self_eq_append_right]

theorem IoRun.Reads.honest_iff (reads : r.Reads) {act : RunAct} (space : act.Roomy)
    (stepped : r.step act = some r') : r.Honest act ↔ r.Solid act := by
  obtain ⟨room, rfl⟩ | other : (∃ room, act = .own (.pollRead room)) ∨
      ∀ room, act ≠ .own (.pollRead room) := Classical.exists_or_forall_not _
  · obtain ⟨idle, hollow⟩ := reads.hollow space stepped
    constructor
    · intro honest _ empty first
      obtain ⟨unfed, all⟩ := honest room r' rfl stepped (hollow.mpr ⟨empty, .inl first⟩)
      exact ⟨unfed, (reads.drained idle empty).mp all⟩
    · intro solid _ next _ stepped' filled
      obtain rfl : r' = next := Option.some.inj (stepped.symm.trans stepped')
      obtain ⟨empty, first | ⟨nothing, unfed⟩⟩ := hollow.mp filled
      · obtain ⟨unfed, rest⟩ := solid idle empty first
        exact ⟨unfed, (reads.drained idle empty).mpr rest⟩
      · exact ⟨unfed, (reads.drained idle empty).mpr (by rw [nothing, List.flatten_nil])⟩
  · refine iff_of_true (fun room _ same => absurd same (other room)) ?_
    unfold IoRun.Solid
    split
    · exact absurd rfl (other _)
    · trivial

theorem others_feeds {u next : Users} {act : UsersAct} (wired : Wired u.session)
    (stepped : u.step act = some next) (known : n < u.session.created)
    (feeds : next.session.Feeds n) : u.session.Feeds n := by
  cases act with
  | link act =>
    obtain ⟨session, did, rfl⟩ := Option.map_eq_some_iff.mp stepped
    exact step_feeds wired did known feeds
  | task name act =>
    obtain ⟨⟨session, task⟩, did, rfl⟩ := Option.map_eq_some_iff.mp stepped
    exact (quiet_taskStep did).feeds known feeds

/-- The end is final: nothing more comes, and nothing more is returned. -/
theorem IoRun.Ended.step (ended : r.Ended) (reads : r.Reads) {act : RunAct}
    (stepped : r.step act = some r') : r'.Ended := by
  have front := (reads.step stepped).front
  obtain ⟨unfed, all⟩ := ended
  obtain ⟨theirs, users, -, avoids, did, rfl⟩ | ⟨own, session, io, ret, -, move, rfl⟩ :=
    IoRun.step_cases stepped
  · obtain ⟨-, -, -, same | ⟨id, body, -, reading, -⟩⟩ := others_inbox avoids did reads.known
    · refine ⟨fun feeds => unfed (others_feeds reads.wired did reads.known feeds), all.trans ?_⟩
      exact congrArg List.flatten same.symm
    · exact absurd (.inr (by rw [reading]; rfl)) unfed
  · have stream := move.stream
    have quiet := move.quiet reads.known
    have same : (r.after own session io ret).inbox.accepted = r.inbox.accepted := by
      rw [IoRun.inbox, IoRun.after, stream]
      exact quiet.accepted _ reads.known
    rw [same, ← all] at front
    refine ⟨fun feeds => unfed (quiet.feeds reads.known (stream ▸ feeds)), ?_⟩
    rw [same, ← all]
    exact front.eq_of_length_le (by simp [IoRun.after])

/-- Only `poll_read` comes to fill no byte. -/
theorem IoMove.hollow {own : IoAct} (move : IoMove s io own s' io' ret)
    (hollow : io'.call = .crediting [] ∨ io'.call = .ending) : ∃ room, own = .pollRead room := by
  cases move with
  | drains room => exact ⟨room, rfl⟩
  | receives room => exact ⟨room, rfl⟩
  | parks room => exact ⟨room, rfl⟩
  | ends room => exact ⟨room, rfl⟩
  | refuses _ _ _ idle => simp [idle] at hollow
  | buffers _ _ idle => simp [idle] at hollow
  | stages _ _ idle => simp [idle] at hollow
  | closes result => cases result <;> simp [IoReturn.next] at hollow
  | flushed _ shutdown => cases shutdown <;> simp [StreamIo.flushed] at hollow
  | sent _ _ _ call => simp [call] at hollow
  | breaks _ shutdown => cases shutdown <;> simp [StreamIo.flushed] at hollow
  | polls _ _ _ _ call => simp [call] at hollow
  | _ => simp at hollow

/-- What has returned without a byte was about to. -/
theorem IoMove.hollow_before {own : IoAct} (move : IoMove s io own s' io' (some (.read [])))
    (plain : ∀ bytes, io.call ≠ .closing (.read bytes)) :
    io.call = .crediting [] ∨ io.call = .ending := by
  generalize returned : some (IoReturn.read []) = ret at move
  cases move with
  | credits bytes ok call =>
    cases returned
    exact .inl call
  | finishes ok call => exact .inr call
  | closes result ok call =>
    cases returned
    exact absurd call (plain [])
  | flushed _ shutdown => cases shutdown <;> simp [StreamIo.flushed] at returned
  | breaks _ shutdown => cases shutdown <;> simp [StreamIo.flushed] at returned
  | _ => simp at returned

/-- A `poll_read` that has filled no byte, or is about to, has met the end. -/
structure IoRun.Candid (r : IoRun) : Prop where
  reads : r.Reads
  hollow : r.Hollow → r.Ended
  last : r.last = some (.read []) → r.Ended

theorem IoRun.Candid.step (candid : r.Candid) {act : RunAct} (space : act.Roomy) (solid : r.Solid act)
    (stepped : r.step act = some r') : r'.Candid := by
  have reads := candid.reads
  have honest := (reads.honest_iff space stepped).mpr solid
  have stays (ended : r.Ended) : r'.Ended := ended.step reads stepped
  refine ⟨reads.step stepped, fun hollow => stays ?_, fun last => stays ?_⟩
  · obtain ⟨theirs, users, -, -, -, rfl⟩ | ⟨own, session, io, ret, rfl, move, rfl⟩ :=
      IoRun.step_cases stepped
    · exact candid.hollow hollow
    · obtain ⟨room, rfl⟩ := move.hollow hollow
      exact honest room _ rfl stepped hollow
  · obtain ⟨theirs, users, -, -, -, rfl⟩ | ⟨own, session, io, ret, rfl, move, rfl⟩ :=
      IoRun.step_cases stepped
    · exact candid.last last
    · obtain rfl : ret = some (.read []) := last
      exact candid.hollow (move.hollow_before fun bytes => (reads.plain bytes).2)

theorem linked_wired {maxStreams : Nat} {onOpen : Bool} {setup : List UsersAct} {u : Users}
    (linked : run Users.step { session := .start maxStreams onOpen } setup = some u) :
    Wired u.session :=
  run_preserves (fun u => Wired u.session) (fun _ _ _ wired stepped => users_wired wired stepped)
    (wired_start maxStreams onOpen) linked

/-- What `poll_read` returns is a front part of what was queued. It fills no byte
only at the end of the stream exactly as long as it takes zero-length chunks there
only; and where it has returned so, everything queued has been returned. -/
theorem poll_read_returns_what_is_queued {maxStreams : Nat} {onOpen : Bool} {setup : List UsersAct}
    {u : Users} (linked : run Users.step { session := .start maxStreams onOpen } setup = some u)
    {n : Nat} (known : n < u.session.created) (untouched : (u.session.arena n).inbox.taken = 0)
    {actions : List RunAct} (roomy : ∀ act ∈ actions, act.Roomy) {t : IoRun}
    (ran : run IoRun.step (.start u n) actions = some t) :
    t.returned <+: t.inbox.accepted.flatten ∧
    (Meets IoRun.step IoRun.Honest (.start u n) actions ↔
      Meets IoRun.step IoRun.Solid (.start u n) actions) ∧
    (Meets IoRun.step IoRun.Solid (.start u n) actions → t.last = some (.read []) → t.Ended) := by
  have start : (IoRun.start u n).Reads := .start known (linked_wired linked) untouched
  have space : Meets IoRun.step (fun _ act => act.Roomy) (.start u n) actions :=
    meets_of_mem fun act member _ => roomy act member
  refine ⟨?_, ?_, fun met => ?_⟩
  · exact (run_preserves IoRun.Reads (fun _ _ _ reads stepped => reads.step stepped) start ran).front
  · refine meets_iff_where IoRun.Reads (fun r act next reads _ stepped => ?_)
      (fun r act next reads space stepped => ?_) start space ran
    · exact reads.step stepped
    · exact reads.honest_iff space stepped
  · have candid : t.Candid := by
      refine run_preserves_where IoRun.Candid (fun r act next candid both stepped => ?_) ?_
        (met.and space) ran
      · exact candid.step both.2 both.1 stepped
      · exact ⟨start, by simp [IoRun.Hollow, IoRun.start], by simp [IoRun.start]⟩
    exact candid.last

/-- Three bytes and the CLOSE, read in two parts and to the end. -/
private def readToTheEnd : List RunAct :=
  [.other (.link (.recv [0, 0, 0, 1, 1, 0, 0, 0, 1, 2, 3])), .other (.link .advance),
    .other (.link (.recv [0, 0, 0, 1, 2, 0, 0, 0])), .own (.pollRead 2), .own (.proceed true),
    .own (.pollRead 2), .own (.proceed true), .own (.pollRead 2), .own (.proceed true)]

theorem poll_read_returns_what_is_queued_closed :
    ∃ t, run IoRun.step (.start .opened 0) readToTheEnd = some t ∧ t.last = some (.read []) ∧
      t.returned = [1, 2, 3] ∧ t.Ended := by
  have checked : ((run IoRun.step (.start .opened 0) readToTheEnd).any fun t =>
      decide (t.last = some (.read []) ∧ t.returned = [1, 2, 3])) = true ∧
      Meets IoRun.step IoRun.Solid (.start .opened 0) readToTheEnd ∧
      0 < Users.opened.session.created ∧ (Users.opened.session.arena 0).inbox.taken = 0 := by
    decide +kernel
  obtain ⟨t, ran, ends⟩ := run_reaches checked.1
  refine ⟨t, ran, ends.1, ends.2, ?_⟩
  exact (poll_read_returns_what_is_queued Users.opened_linked checked.2.2.1 checked.2.2.2
    (by simp [readToTheEnd, RunAct.Roomy]) ran).2.2 checked.2.1 ends.1

/-- A zero-length chunk and a byte are queued: a `poll_read` with room for a byte
returns none, with the stream open and the byte there. -/
theorem zero_length_chunk_reads_as_the_end :
    ∃ t, run IoRun.step (.start .opened 0)
        [.other (.link (.recv [0, 0, 0, 1, 1, 0, 0, 0])), .other (.link .advance),
          .other (.link (.recv [0, 0, 0, 1, 1, 0, 0, 0, 7])), .other (.link .advance),
          .own (.pollRead 1), .own (.proceed true)] = some t ∧
      t.last = some (.read []) ∧ t.users.session.Feeds 0 ∧ t.returned = [] ∧
      t.inbox.accepted.flatten = [7] ∧ ¬ t.Ended := by
  have reached : ((run IoRun.step (.start .opened 0)
      [.other (.link (.recv [0, 0, 0, 1, 1, 0, 0, 0])), .other (.link .advance),
        .other (.link (.recv [0, 0, 0, 1, 1, 0, 0, 0, 7])), .other (.link .advance),
        .own (.pollRead 1), .own (.proceed true)]).any fun t =>
      decide (t.last = some (.read []) ∧ t.users.session.Feeds 0 ∧ t.returned = [] ∧
        t.inbox.accepted.flatten = [7])) = true := by decide +kernel
  obtain ⟨t, ran, ends⟩ := run_reaches reached
  obtain ⟨last, feeds, nothing, queued⟩ := ends
  refine ⟨t, ran, last, feeds, nothing, queued, fun ended => ?_⟩
  have all := ended.2
  rw [nothing, queued] at all
  cases all

end DshProxy.Mux

import DshProxy.StreamOwners

/-! What one stream can see of a link. Every arm of `read_loop` and every
operation of a stream's owner looks up and changes what belongs to one id; so a
stream goes through the same states whatever else the link carries, as long as
the same happens to itself. -/
namespace DshProxy.Mux
open Sync Wire Transitions ByteOrder

/-- The largest number of permits a semaphore can hold: `usize::MAX >> 3`. -/
def maxPermits : Nat := 2 ^ 61 - 1

/-- The id the reader is busy with. -/
def Reader.about : Reader → Option UInt32
  | .accepting id | .offer id _ _ | .overflow id _ | .refuse id _ => some id
  | .idle | .echo | .dying | .aborting | .ended => none

/-- `read_loop` has not returned, and has no stream of the peer's to insert. -/
def Reader.Serving (r : Reader) : Prop :=
  r ≠ .dying ∧ r ≠ .aborting ∧ r ≠ .ended ∧ ∀ id, r ≠ .accepting id

/-- The id the task is in the middle of something for. -/
def Session.serves (s : Session) : Task → Option UInt32
  | .closing id => some id
  | .opening (.announce n) | .opening (.giveUp n) | .sending n (.acquire _) | .sending n (.queue _ _)
  | .granting n _ => some (s.arena n).id
  | .idle | .opening .reserve | .opening .allocate | .opening (.insert _) | .opening .refused
  | .opening (.opened _) | .sending _ .sent | .sending _ .broken => none

/-- The stream an operation is begun on. -/
def TaskAct.stream : TaskAct → Option Nat
  | .send n _ | .grant n _ | .close n | .closeStream n _ | .flushCredit n _ _ | .recv n
  | .hangUp n => some n
  | .tryOpen | .proceed => none

/-- The id that a task's step is about. -/
def Session.target (s : Session) (task : Task) (act : TaskAct) : Option UInt32 :=
  if act = .proceed then s.serves task else act.stream.map fun n => (s.arena n).id

/-- What can happen to a stream: a frame with its id is read, `read_loop` goes on
with such a frame, or one of its owners acts. -/
inductive StreamEvent
  | frame (frame : Frame)
  | advance
  | reply
  | owner (name : Nat) (act : TaskAct)
  deriving DecidableEq, Repr

/-- What the step is to the stream with id `j`. -/
def Users.event (j : UInt32) (u : Users) : UsersAct → Option StreamEvent
  | .link (.recv plain) => (Frame.parse plain).bind fun frame =>
    if frame.id = j then some (.frame frame) else none
  | .link .advance => if u.session.reader.about = some j then some .advance else none
  | .link .reply => if u.session.reader.about = some j then some .reply else none
  | .link _ => none
  | .task name act =>
    if u.session.target (u.tasks name) act = some j then some (.owner name act) else none

/-- The chunk the step offers to the inbox of the stream with id `j`. -/
def Users.offers (j : UInt32) (u : Users) : UsersAct → Option Bytes
  | .link .advance =>
    match u.session.reader with
    | .offer id _ body => if id = j then some body else none
    | _ => none
  | _ => none

/-- A frame that is not an OPEN and, if it grants at all (a WINDOW frame of any
other length is ignored), grants what the semaphore can hold. -/
def Session.Bears (s : Session) (frame : Frame) : Prop :=
  frame.kind ≠ .opening ∧ (frame.kind = .window → frame.payload.length = 4 →
    ∀ n ∈ s.streams frame.id, (s.arena n).credit.permits + ofBe frame.payload ≤ maxPermits)

/-- The link stays up, its frames are long enough and bearable, and no new stream
is given the id `j`. -/
def Users.Allows (j : UInt32) (u : Users) : UsersAct → Prop
  | .link (.recv plain) => ∃ frame ∈ Frame.parse plain, u.session.Bears frame
  | .link .lapse | .link .writerEnds | .link .readerAborted | .link .shutdownClear
  | .link .shutdownAbort => False
  | .link _ => True
  | .task name act => act = .proceed → u.tasks name ≠ .opening (.insert j)

instance (s : Session) (frame : Frame) : Decidable (s.Bears frame) :=
  have : Decidable (∀ n ∈ s.streams frame.id,
    (s.arena n).credit.permits + ofBe frame.payload ≤ maxPermits) := Option.decidableForallMem _
  inferInstanceAs (Decidable (_ ∧ _))

instance (j : UInt32) (u : Users) : (act : UsersAct) → Decidable (u.Allows j act)
  | .link (.recv plain) => Option.decidableExistsMem (Frame.parse plain)
  | .link .lapse | .link .writerEnds | .link .readerAborted | .link .shutdownClear
  | .link .shutdownAbort => isFalse id
  | .link .advance | .link .reply | .link (.takeBatch _) | .link .feed | .link .release => isTrue trivial
  | .task _ _ => inferInstanceAs (Decidable (_ → ¬ _))

instance (r : Reader) : Decidable r.Serving :=
  match r with
  | .accepting id => isFalse fun serving => serving.2.2.2 id rfl
  | .dying => isFalse fun serving => serving.1 rfl
  | .aborting => isFalse fun serving => serving.2.1 rfl
  | .ended => isFalse fun serving => serving.2.2.1 rfl
  | .idle | .echo | .offer _ _ _ | .overflow _ _ | .refuse _ _ => isTrue ⟨nofun, nofun, nofun, nofun⟩

/-- The session as the stream with id `j` sees it: as if there was no other. -/
def Session.only (j : UInt32) (bound : Nat) (s : Session) : Session where
  out := {
    accepted := s.out.accepted.filter fun frame => frame.id = j
    taken := (s.out.accepted.filter fun frame => frame.id = j).length
    isOpen := s.out.isOpen
    within := Nat.le_refl _ }
  streams := fun id => if id = j then s.streams id else none
  arena := fun n => if (s.arena n).id = j then s.arena n else (Session.start 0 false).arena n
  created := bound
  budget := 0
  reader := if s.reader.about = some j then s.reader else .idle
  log := s.log.filter fun frame => frame.id = j

/-- So too its users. -/
def Users.only (j : UInt32) (bound : Nat) (u : Users) : Users where
  session := u.session.only j bound
  tasks := fun name => if u.session.serves (u.tasks name) = some j then u.tasks name else .idle

variable {j : UInt32} {bound : Nat} {s t x : Session}

@[simp] theorem start_arena (maxStreams : Nat) (onOpen : Bool) (n : Nat) :
    (Session.start maxStreams onOpen).arena n = {} := rfl

/-- What two sessions with the same view have in common. -/
structure Session.Shares (j : UInt32) (s t : Session) : Prop where
  out : t.out.accepted.filter (fun f => f.id = j) = s.out.accepted.filter fun f => f.id = j
  live : t.out.isOpen = s.out.isOpen
  streams : t.streams j = s.streams j
  arena : ∀ n, (if (t.arena n).id = j then t.arena n else {}) =
    if (s.arena n).id = j then s.arena n else {}
  reader : (if t.reader.about = some j then t.reader else .idle) =
    if s.reader.about = some j then s.reader else .idle
  log : t.log.filter (fun f => f.id = j) = s.log.filter fun f => f.id = j

theorem Session.Shares.only (shares : s.Shares j t) : t.only j bound = s.only j bound := by
  have maps : (fun id => if id = j then t.streams id else none) =
      fun id => if id = j then s.streams id else none := by
    funext id
    by_cases same : id = j
    · rw [if_pos same, if_pos same, same, shares.streams]
    · rw [if_neg same, if_neg same]
  simp only [Session.only, start_arena, shares.out, shares.live, maps, funext shares.arena,
    shares.reader, shares.log]

/-! What happens to other ids leaves the view of `j` alone. -/

section Others

theorem only_modify_other {n : Nat} {change : Stream → Stream} (other : (s.arena n).id ≠ j)
    (keeps : (change (s.arena n)).id = (s.arena n).id) :
    (s.modify n change).only j bound = s.only j bound := by
  refine Session.Shares.only ⟨rfl, rfl, rfl, fun m => ?_, rfl, rfl⟩
  by_cases same : m = n
  · subst same
    simp [Session.modify, keeps, other]
  · simp [Session.modify, same]

theorem only_remove_other {id : UInt32} (other : id ≠ j) :
    (s.remove id).only j bound = s.only j bound := by
  unfold Session.remove
  split
  · rfl
  · refine Session.Shares.only ⟨rfl, rfl, ?_, fun _ => rfl, rfl, rfl⟩
    exact Function.update_of_ne (Ne.symm other) _ _

theorem only_removeAndClose_other {id : UInt32} (valid : Valid s) (other : id ≠ j) :
    (s.removeAndClose id).only j bound = s.only j bound := by
  unfold Session.removeAndClose
  split
  · rfl
  · rename_i n found
    have named := (valid.known found).2
    have away : ((s.remove id).arena n).id ≠ j := by
      rw [arena_remove, named]
      exact other
    exact (only_modify_other away rfl).trans (only_remove_other other)

theorem only_push_other {frame : Frame} (other : frame.id ≠ j) :
    ({ s with out := s.out.push frame } : Session).only j bound = s.only j bound := by
  refine Session.Shares.only ⟨?_, rfl, rfl, fun _ => rfl, rfl, rfl⟩
  simp [List.filter_append, other]

theorem only_enqueue_other {frame : Frame} (queued : s.enqueue frame = some t) (other : frame.id ≠ j) :
    t.only j bound = s.only j bound := by
  obtain ⟨rfl, -, -⟩ := enqueue_eq queued
  exact only_push_other other

theorem only_insert_other {id : UInt32} (fresh : (s.arena s.created).id ≠ j) (other : id ≠ j) :
    (s.insert id).only j bound = s.only j bound := by
  refine Session.Shares.only ⟨rfl, rfl, ?_, fun n => ?_, rfl, rfl⟩
  · exact Function.update_of_ne (Ne.symm other) _ _
  · by_cases same : n = s.created
    · subst same
      simp [Session.insert, fresh, other]
    · simp [Session.insert, same]

theorem only_goes {r : Reader} (before : s.reader.about ≠ some j) (after : r.about ≠ some j) :
    ({ s with reader := r } : Session).only j bound = s.only j bound := by
  refine Session.Shares.only ⟨rfl, rfl, rfl, fun _ => rfl, ?_, rfl⟩
  rw [if_neg before, if_neg after]

theorem only_log {frame : Frame} (other : frame.id ≠ j) :
    ({ s with log := s.log ++ [frame] } : Session).only j bound = s.only j bound := by
  refine Session.Shares.only ⟨rfl, rfl, rfl, fun _ => rfl, rfl, ?_⟩
  simp [List.filter_append, other]

/-- A frame with another id. -/
private theorem heard_other {frame : Frame} (valid : Valid s) (idle : s.reader = .idle)
    (bears : s.Bears frame) (other : frame.id ≠ j) (did : Heard s frame t) :
    t.only j bound = s.only j bound := by
  have logged : ({ s with log := s.log ++ [frame] } : Session).only j bound = s.only j bound :=
    only_log other
  have before : s.reader.about ≠ some j := by
    rw [idle]
    exact nofun
  have goes {r : Reader} (after : r.about ≠ some j) :
      ({ s with log := s.log ++ [frame], reader := r } : Session).only j bound = s.only j bound :=
    (@only_goes j bound { s with log := s.log ++ [frame] } r before after).trans logged
  cases did with
  | keepalive => exact goes nofun
  | opens _ kind => exact absurd kind bears.1
  | overBudget _ kind => exact absurd kind bears.1
  | data aim => exact goes fun same => other (Option.some.inj same)
  | grants aim _ _ _ found =>
    have named := (valid.known found).2
    exact (only_modify_other (named ▸ other) rfl).trans logged
  | closes =>
    have kept : Valid { s with log := s.log ++ [frame] } := ⟨valid.known, valid.gate⟩
    exact (only_removeAndClose_other kept other).trans logged
  | ignores => exact logged

/-- A step of the link about another id, or about none. -/
private theorem link_other {act : Session.Act} {u : Users} (wired : Wired u.session)
    (serving : u.session.reader.Serving) (live : u.session.out.isOpen = true)
    (allows : u.Allows j (.link act)) (quiet : u.event j (.link act) = none) (zero : j ≠ 0)
    (stepped : u.session.step act = some t) :
    t.only j bound = u.session.only j bound := by
  have removed (id : UInt32) (other : id ≠ j) :
      (u.session.removeAndClose id).only j bound = u.session.only j bound :=
    only_removeAndClose_other wired.valid other
  -- The reader's own steps are about the id it is busy with.
  have goes (own : act = .advance ∨ act = .reply) {x : Session} {r : Reader}
      (same : x.reader = u.session.reader) (after : r.about = none ∨ r.about = u.session.reader.about)
      (kept : x.only j bound = u.session.only j bound) :
      ({ x with reader := r } : Session).only j bound = u.session.only j bound := by
    have away : u.session.reader.about ≠ some j := by
      intro about
      obtain rfl | rfl := own <;> simp [Users.event, about] at quiet
    refine (only_goes (same ▸ away) ?_).trans kept
    obtain none | as_before := after
    · rw [none]
      exact nofun
    · rw [as_before]
      exact away
  have other (own : act = .advance ∨ act = .reply) {id : UInt32}
      (about : u.session.reader.about = some id) : id ≠ j := by
    rintro rfl
    obtain rfl | rfl := own <;> simp [Users.event, about] at quiet
  cases step_move stepped with
  | short plain idle bad =>
    obtain ⟨frame, parsed, -⟩ := allows
    rw [bad] at parsed
    cases parsed
  | heard plain frame idle _ parsed did =>
    obtain ⟨frame', parsed', bears⟩ := allows
    obtain rfl : frame' = frame := Option.some.inj (parsed'.symm.trans parsed)
    have other : frame'.id ≠ j := by
      rintro same
      simp [Users.event, parsed, same] at quiet
    exact heard_other wired.valid idle bears other did
  | lapse => exact allows.elim
  | admits id reading => exact absurd reading (serving.2.2.2 id)
  | admitsNobody id reading => exact absurd reading (serving.2.2.2 id)
  | delivers id n body reading =>
    have away : (u.session.arena n).id ≠ j := by
      rw [(wired.offers id n body reading).2]
      exact other (.inl rfl) (by rw [reading]; rfl)
    exact goes (.inl rfl) rfl (.inl rfl) (only_modify_other away rfl)
  | drops => exact goes (.inl rfl) rfl (.inl rfl) rfl
  | overflows id n body reading => exact goes (.inl rfl) rfl (.inr (by rw [reading]; rfl)) rfl
  | evicts id n reading =>
    have away := other (.inl rfl) (by rw [reading]; rfl)
    exact goes (.inl rfl) (quiet_removeAndClose _ _).reader (.inr (by rw [reading]; rfl)) (removed id away)
  | dies reading => exact absurd reading serving.1
  | ends reading => exact absurd reading serving.2.1
  | replies frame reading did =>
    have named : frame.id ≠ j := by
      cases shape : u.session.reader <;> rw [shape] at reading <;> cases reading
      · exact Ne.symm zero
      · exact other (.inr rfl) (by rw [shape]; rfl)
    exact goes (.inr rfl) (quiet_enqueue did).reader (.inl rfl) (only_enqueue_other did named)
  | replyFails frame _ dead =>
    rw [live] at dead
    cases dead
  | takeBatch => exact Session.Shares.only ⟨rfl, rfl, rfl, fun _ => rfl, rfl, rfl⟩
  | feed => rfl
  | writerEnds => exact allows.elim
  | readerAborted => exact allows.elim
  | release => rfl
  | shutdownClear => exact allows.elim
  | shutdownAbort => exact allows.elim

private theorem only_sends_other {frame : Frame} {ok error res : β} (other : frame.id ≠ j)
    (sent : s.sends frame ok error = some (t, res)) : t.only j bound = s.only j bound := by
  obtain ⟨queued, -⟩ | ⟨-, rfl, -⟩ := sends_cases sent
  · exact only_enqueue_other queued other
  · rfl

private theorem only_trySends_other {frame : Frame} {sent : Bool} (other : frame.id ≠ j)
    (tried : s.trySends frame sent = some t) : t.only j bound = s.only j bound := by
  unfold Session.trySends at tried
  split at tried
  · exact only_enqueue_other tried other
  · cases tried
    rfl

private theorem arena_sends {frame : Frame} {ok error res : β}
    (sent : s.sends frame ok error = some (t, res)) : t.arena = s.arena := by
  obtain ⟨queued, -⟩ | ⟨-, rfl, -⟩ := sends_cases sent
  · obtain ⟨rfl, -, -⟩ := enqueue_eq queued
    rfl
  · rfl

private theorem serves_opened {n : Nat} {stage : Opening} (named : (s.arena n).id ≠ j)
    (done : stage = .opened n ∨ stage = .giveUp n) : s.serves (.opening stage) ≠ some j := by
  obtain rfl | rfl := done
  · exact nofun
  · exact fun same => named (Option.some.inj same)

/-- An open that is not about `j`, and has another id. -/
private theorem open_other {stage next : Opening} (fresh : (s.arena s.created).id ≠ j)
    (other : s.serves (.opening stage) ≠ some j)
    (inserted : stage ≠ .insert j) (stepped : s.openStep stage = some (t, next)) :
    t.only j bound = s.only j bound ∧ t.serves (.opening next) ≠ some j := by
  cases stage with
  | reserve =>
    simp only [Session.openStep, Session.reserve] at stepped
    split at stepped
    · rename_i got
      obtain ⟨-, same⟩ := Option.ite_none_left_eq_some.mp got
      cases same
      cases stepped
      exact ⟨rfl, by simp [Session.serves]⟩
    · cases stepped
      exact ⟨rfl, by simp [Session.serves]⟩
  | allocate =>
    cases stepped
    exact ⟨rfl, by simp [Session.serves]⟩
  | insert id =>
    cases stepped
    have away : id ≠ j := fun same => inserted (congrArg Opening.insert same)
    refine ⟨only_insert_other fresh away, fun same => away ?_⟩
    simpa [Session.serves, Session.insert] using same
  | announce n =>
    have away : (s.arena n).id ≠ j := fun same => other (congrArg some same)
    have arena := arena_sends stepped
    refine ⟨only_sends_other away stepped, serves_opened (n := n) (by rw [arena]; exact away) ?_⟩
    obtain ⟨-, rfl⟩ | ⟨-, -, rfl⟩ := sends_cases stepped
    · exact .inl rfl
    · exact .inr rfl
  | giveUp n =>
    cases stepped
    have away : (s.arena n).id ≠ j := fun same => other (congrArg some same)
    refine ⟨?_, by simp [Session.serves]⟩
    have kept : ((s.remove (s.arena n).id).arena n).id ≠ j := by rwa [arena_remove]
    exact (only_modify_other kept rfl).trans (only_remove_other away)
  | refused => cases stepped
  | opened n => cases stepped

private theorem send_other {n : Nat} {stage next : Sending} (away : (s.arena n).id ≠ j)
    (stepped : s.sendStep n stage = some (t, next)) :
    t.only j bound = s.only j bound ∧ (t.arena n).id = (s.arena n).id := by
  cases sendStep_move stepped with
  | spends rest =>
    refine ⟨only_modify_other away rfl, ?_⟩
    simp [Session.modify]
  | shut => exact ⟨rfl, rfl⟩
  | queues chunk rest queued =>
    obtain ⟨rfl, -, -⟩ := enqueue_eq queued
    exact ⟨only_push_other away, rfl⟩
  | dead => exact ⟨rfl, rfl⟩

/-- An operation begun on a stream with another id. -/
private theorem begin_other {act : TaskAct} {task : Task} (valid : Valid s)
    (other : act.stream.map (fun n => (s.arena n).id) ≠ some j) (begun : s.begin act = some (t, task)) :
    t.only j bound = s.only j bound ∧ t.serves task ≠ some j := by
  have away {n : Nat} (own : act.stream = some n) : (s.arena n).id ≠ j := by
    rw [own] at other
    exact fun same => other (congrArg some same)
  cases act with
  | tryOpen =>
    cases begun
    exact ⟨rfl, nofun⟩
  | proceed => cases begun
  | send n data =>
    obtain ⟨-, same⟩ := Option.ite_none_right_eq_some.mp begun
    cases same
    refine ⟨rfl, ?_⟩
    unfold Sending.next
    split
    · exact nofun
    · exact fun same => away rfl (Option.some.inj same)
  | grant n bytes =>
    obtain ⟨-, same⟩ := Option.ite_none_right_eq_some.mp begun
    cases same
    exact ⟨rfl, fun same => away rfl (Option.some.inj same)⟩
  | close n =>
    obtain ⟨-, same⟩ := Option.ite_none_right_eq_some.mp begun
    cases same
    exact ⟨only_remove_other (away rfl), fun same => away rfl (Option.some.inj same)⟩
  | closeStream n sent =>
    obtain ⟨-, got⟩ := Option.ite_none_right_eq_some.mp begun
    obtain ⟨mid, tried, same⟩ := Option.map_eq_some_iff.mp got
    cases same
    refine ⟨(only_trySends_other ?_ tried).trans (only_removeAndClose_other valid (away rfl)), nofun⟩
    exact away rfl
  | flushCredit n bytes sent =>
    obtain ⟨-, got⟩ := Option.ite_none_right_eq_some.mp begun
    obtain ⟨mid, tried, same⟩ := Option.map_eq_some_iff.mp got
    cases same
    exact ⟨only_trySends_other (away rfl) tried, nofun⟩
  | recv n =>
    obtain ⟨-, got⟩ := Option.ite_none_right_eq_some.mp begun
    obtain ⟨⟨chunk, mid⟩, took, same⟩ := Option.map_eq_some_iff.mp got
    obtain ⟨⟨first, inbox⟩, -, taken⟩ := Option.map_eq_some_iff.mp took
    cases taken
    cases same
    exact ⟨only_modify_other (away rfl) rfl, nofun⟩
  | hangUp n =>
    obtain ⟨-, same⟩ := Option.ite_none_right_eq_some.mp begun
    cases same
    exact ⟨only_modify_other (away rfl) rfl, nofun⟩

/-- A step of a task that is not about `j`. -/
private theorem task_other {act : TaskAct} {task task' : Task} (valid : Valid s)
    (fresh : (s.arena s.created).id ≠ j) (other : s.target task act ≠ some j)
    (inserted : act = .proceed → task ≠ .opening (.insert j))
    (stepped : s.taskStep task act = some (t, task')) :
    t.only j bound = s.only j bound ∧ t.serves task' ≠ some j := by
  unfold Session.taskStep at stepped
  unfold Session.target at other
  split at stepped
  · rename_i going
    rw [if_pos going] at other
    cases task with
    | idle => cases stepped
    | opening stage =>
      obtain ⟨⟨mid, next⟩, opened, same⟩ := Option.map_eq_some_iff.mp stepped
      cases same
      have fine : stage ≠ .insert j := fun same => inserted going (congrArg Task.opening same)
      exact open_other fresh other fine opened
    | sending n stage =>
      obtain ⟨⟨mid, next⟩, sent, same⟩ := Option.map_eq_some_iff.mp stepped
      cases same
      have away : (s.arena n).id ≠ j := by
        intro same
        cases stage with
        | acquire rest => exact other (congrArg some same)
        | queue chunk rest => exact other (congrArg some same)
        | sent => cases sent
        | broken => cases sent
      obtain ⟨kept, named⟩ := send_other away sent
      refine ⟨kept, fun same => away ?_⟩
      rw [← named]
      cases next with
      | acquire rest => exact Option.some.inj same
      | queue chunk rest => exact Option.some.inj same
      | sent => cases same
      | broken => cases same
    | granting n bytes =>
      refine ⟨only_sends_other (fun same => other (congrArg some same)) stepped, ?_⟩
      obtain ⟨-, rfl⟩ | ⟨-, -, rfl⟩ := sends_cases stepped <;> exact nofun
    | closing id =>
      refine ⟨only_sends_other (fun same => other (congrArg some same)) stepped, ?_⟩
      obtain ⟨-, rfl⟩ | ⟨-, -, rfl⟩ := sends_cases stepped <;> exact nofun
  · rename_i begins
    rw [if_neg begins] at other
    exact begin_other valid other (Option.ite_none_right_eq_some.mp stepped).2

end Others

/-! What happens to `j` itself happens to its view. -/

section Own

/-- A stream of `j` is the same in both. -/
theorem Session.Shares.stream {n : Nat} (shares : s.Shares j t) (zero : j ≠ 0)
    (own : (s.arena n).id = j) : t.arena n = s.arena n := by
  have same := shares.arena n
  rw [if_pos own] at same
  by_cases also : (t.arena n).id = j
  · rwa [if_pos also] at same
  · rw [if_neg also] at same
    rw [← same] at own
    exact absurd own.symm zero

theorem Session.Shares.goes (shares : s.Shares j t) (r : Reader) :
    Session.Shares j { s with reader := r } { t with reader := r } :=
  ⟨shares.out, shares.live, shares.streams, shares.arena, rfl, shares.log⟩

theorem Session.Shares.hears (shares : s.Shares j t) (frame : Frame) :
    Session.Shares j { s with log := s.log ++ [frame] } { t with log := t.log ++ [frame] } := by
  refine ⟨shares.out, shares.live, shares.streams, shares.arena, shares.reader, ?_⟩
  rw [List.filter_append, List.filter_append, shares.log]

theorem Session.Shares.push (shares : s.Shares j t) (frame : Frame) :
    Session.Shares j { s with out := s.out.push frame } { t with out := t.out.push frame } := by
  refine ⟨?_, shares.live, shares.streams, shares.arena, shares.reader, shares.log⟩
  rw [Channel.push_accepted, Channel.push_accepted, List.filter_append, List.filter_append, shares.out]

theorem Session.Shares.modify {n : Nat} (shares : s.Shares j t) (zero : j ≠ 0)
    (own : (s.arena n).id = j) (change : Stream → Stream) :
    Session.Shares j (s.modify n change) (t.modify n change) := by
  refine ⟨shares.out, shares.live, shares.streams, fun m => ?_, shares.reader, shares.log⟩
  by_cases same : m = n
  · subst same
    simp [Session.modify, shares.stream zero own]
  · simpa [Session.modify, same] using shares.arena m

theorem Session.Shares.remove (shares : s.Shares j t) :
    Session.Shares j (s.remove j) (t.remove j) := by
  unfold Session.remove
  rw [shares.streams]
  split
  · exact shares
  · refine ⟨shares.out, shares.live, ?_, shares.arena, shares.reader, shares.log⟩
    simp

theorem Session.Shares.removeAndClose (shares : s.Shares j t) (valid : Valid s) (zero : j ≠ 0) :
    Session.Shares j (s.removeAndClose j) (t.removeAndClose j) := by
  unfold Session.removeAndClose
  rw [shares.streams]
  split
  · exact shares
  · rename_i n found
    refine shares.remove.modify zero ?_ _
    rw [arena_remove]
    exact (valid.known found).2

/-- A task that can begin something new is busy for no id. -/
private theorem serves_free {task : Task} (free : task.free = true) : s.serves task = none := by
  cases task with
  | idle => rfl
  | opening stage => cases stage <;> first | rfl | cases free
  | sending n stage => cases stage <;> first | rfl | cases free
  | granting n bytes => cases free
  | closing id => cases free

end Own

/-! Whole runs. -/

/-- Nothing is where no stream has been created. -/
def Session.Blank (s : Session) : Prop := ∀ n, s.created ≤ n → (s.arena n).id = 0

variable {u next : Users} {act : UsersAct}

/-- What a step does to the ids in the arena: nothing, or one new stream. -/
private theorem users_named (stepped : u.step act = some next) :
    (next.session.created = u.session.created ∧
      ∀ n, (next.session.arena n).id = (u.session.arena n).id) ∨
    ∃ id, ((∃ name, act = .task name .proceed ∧ u.tasks name = .opening (.insert id)) ∨
        u.session.reader = .accepting id) ∧
      next.session.created = u.session.created + 1 ∧
      ∀ n, (next.session.arena n).id = if n = u.session.created then id else (u.session.arena n).id := by
  have inserted {s t : Session} {id : UInt32} (same : Alike (s.insert id) t) :
      t.created = s.created + 1 ∧ ∀ n, (t.arena n).id = if n = s.created then id else (s.arena n).id := by
    refine ⟨same.created, fun n => ?_⟩
    rw [same.id]
    by_cases last : n = s.created
    · simp [Session.insert, last]
    · simp [Session.insert, last]
  have removed {s t : Session} {id : UInt32} (same : Alike (s.removeAndClose id) t) :
      t.created = s.created ∧ ∀ n, (t.arena n).id = (s.arena n).id :=
    ⟨same.created.trans (removeAndClose_created s id),
      fun n => (same.id n).trans (id_removeAndClose s id n)⟩
  have dropped {s t : Session} {id : UInt32} (same : Alike (s.remove id) t) :
      t.created = s.created ∧ ∀ n, (t.arena n).id = (s.arena n).id :=
    ⟨same.created.trans (remove_created s id), fun n => (same.id n).trans (by rw [arena_remove])⟩
  cases act with
  | link act =>
    obtain ⟨session, did, rfl⟩ := Option.map_eq_some_iff.mp stepped
    obtain ⟨same, -⟩ | ⟨id, -, same⟩ | ⟨-, same⟩ | ⟨id, -, reading, same⟩ := step_map did
    · exact .inl ⟨same.created, same.id⟩
    · exact .inl (removed same)
    · refine .inl ⟨same.created, fun n => (same.id n).trans ?_⟩
      simp only [Session.clear]
      split <;> rfl
    · exact .inr ⟨id, .inr reading, inserted same⟩
  | task name act =>
    obtain ⟨⟨session, task⟩, did, rfl⟩ := Option.map_eq_some_iff.mp stepped
    obtain ⟨same, -⟩ | ⟨n, sent, -, same⟩ | ⟨id, rfl, stage, same⟩ | ⟨n, -, -, same⟩ | ⟨n, -, same⟩ :=
      taskStep_map did
    · exact .inl ⟨same.created, same.id⟩
    · exact .inl (removed same)
    · exact .inr ⟨id, .inl ⟨name, rfl, stage⟩, inserted same⟩
    · exact .inl (dropped same)
    · exact .inl (dropped same)

/-- Where the stream with id `j` stands: the link is up, and no stream younger
than the first `bound` has the id. -/
structure Users.Holds (j : UInt32) (bound : Nat) (u : Users) : Prop where
  wired : Wired u.session
  blank : u.session.Blank
  serving : u.session.reader.Serving
  live : u.session.out.isOpen = true
  below : ∀ n, (u.session.arena n).id = j → n < bound

private theorem step_ids (zero : j ≠ 0) (holds : u.Holds j bound) (allows : u.Allows j act)
    (stepped : u.step act = some next) (n : Nat) :
    (next.session.arena n).id = j ↔ (u.session.arena n).id = j := by
  obtain ⟨-, same⟩ | ⟨id, source, -, same⟩ := users_named stepped
  · rw [same]
  · rw [same]
    split
    · rename_i last
      rw [last, holds.blank _ (Nat.le_refl _)]
      obtain ⟨name, rfl, stands⟩ | reading := source
      · have away : id ≠ j := by
          rintro rfl
          exact allows rfl stands
        exact ⟨fun own => absurd own away, fun own => absurd own (Ne.symm zero)⟩
      · exact absurd reading (holds.serving.2.2.2 id)
    · rfl

/-! The link stays up. -/

private theorem serves_congr (ids : ∀ n, (t.arena n).id = j ↔ (s.arena n).id = j) (task : Task) :
    t.serves task = some j ↔ s.serves task = some j := by
  unfold Session.serves
  split <;> simp [ids]

private theorem Session.Shares.ids (shares : s.Shares j t) (zero : j ≠ 0) (n : Nat) :
    (t.arena n).id = j ↔ (s.arena n).id = j := by
  have same := shares.arena n
  by_cases own : (s.arena n).id = j
  · rw [shares.stream zero own]
  · rw [if_neg own] at same
    refine iff_of_false (fun also => ?_) own
    rw [if_pos also] at same
    rw [same] at also
    exact zero also.symm

/-- A task whose step is not about `j` was in the middle of nothing for `j`. -/
private theorem serves_other {act : TaskAct} {task task' : Task} (other : s.target task act ≠ some j)
    (stepped : s.taskStep task act = some (t, task')) : s.serves task ≠ some j := by
  unfold Session.target at other
  unfold Session.taskStep at stepped
  split at stepped
  · rename_i going
    rwa [if_pos going] at other
  · rw [serves_free (Option.ite_none_right_eq_some.mp stepped).1]
    exact nofun

/-- What an event offers to the inbox, by the view. -/
private def Users.shows (v : Users) : StreamEvent → Option Bytes
  | .advance =>
    match v.session.reader with
    | .offer _ _ body => some body
    | _ => none
  | _ => none

private theorem quiet (zero : j ≠ 0) : Unseen Users.step (Users.Allows j) (Users.event j)
    (Users.offers j) (Users.only j bound) (Users.Holds j bound) := by
  intro u act next holds allows stepped nothing
  have ids := step_ids zero holds allows stepped
  have fresh : (u.session.arena u.session.created).id ≠ j := by
    rw [holds.blank _ (Nat.le_refl _)]
    exact Ne.symm zero
  cases act with
  | link act =>
    obtain ⟨session, did, rfl⟩ := Option.map_eq_some_iff.mp stepped
    have kept := @link_other j bound _ _ _ holds.wired holds.serving holds.live allows nothing zero did
    have same : ∀ name, (if session.serves (u.tasks name) = some j then u.tasks name else .idle) =
        if u.session.serves (u.tasks name) = some j then u.tasks name else .idle :=
      fun name => if_congr (serves_congr ids _) rfl rfl
    refine ⟨by simp only [Users.only, kept, funext same], ?_⟩
    cases act with
    | advance =>
      have away : u.session.reader.about ≠ some j := fun about => by simp [Users.event, about] at nothing
      unfold Users.offers
      dsimp only
      split
      · rename_i id n body reading
        refine if_neg fun own => away ?_
        rw [reading, own]
        rfl
      · rfl
    | _ => rfl
  | task name act =>
    obtain ⟨⟨session, task⟩, did, rfl⟩ := Option.map_eq_some_iff.mp stepped
    have other : u.session.target (u.tasks name) act ≠ some j := fun own => by
      simp [Users.event, own] at nothing
    obtain ⟨kept, away⟩ := @task_other j bound _ _ _ _ _ holds.wired.valid fresh other allows did
    refine ⟨?_, rfl⟩
    have same : ∀ stage, (if session.serves (Function.update u.tasks name task stage) = some j then
          Function.update u.tasks name task stage else .idle) =
        if u.session.serves (u.tasks stage) = some j then u.tasks stage else .idle := by
      intro stage
      by_cases mine : stage = name
      · subst mine
        rw [Function.update_self, if_neg away, if_neg (serves_other other did)]
      · rw [Function.update_of_ne mine]
        exact if_congr (serves_congr ids _) rfl rfl
    simp only [Users.only, kept, funext same]

/-- The CLOSE frames queued for an id. -/
def Session.closes (s : Session) (j : UInt32) : List Frame :=
  s.out.accepted.filter fun frame => frame.id = j ∧ frame.kind = .close

/-- The bridge is about the first stream only. -/
private def undisturbed : List UsersAct :=
  [.link (.recv [0, 0, 0, 1, 1, 0, 0, 0, 97]), .link .advance, .task 2 (.recv 0),
    .link (.recv [0, 0, 0, 1, 3, 0, 0, 0, 0, 0, 1, 0]), .task 0 (.close 0), .task 0 .proceed]

end DshProxy.Mux

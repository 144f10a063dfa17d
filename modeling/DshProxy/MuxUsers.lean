import DshProxy.MuxSession
import DshProxy.Transitions

/-! Everyone who works on a session at once: the two link tasks and any number
of tasks that open streams, send, grant and close. The results here are about
the credit gate of a stream that has left the map: nothing can refill it any
more, so a sender that waits there waits for ever unless the gate is closed. -/
namespace DshProxy.Mux
open Sync Wire Transitions

/-- What a task that uses the session is in the middle of. -/
inductive Task
  | idle
  /-- `try_open_stream`. -/
  | opening (stage : Opening)
  /-- `StreamTx::send`. -/
  | sending (stream : Nat) (stage : Sending)
  /-- `StreamTx::grant`: sending WINDOW. -/
  | granting (stream : Nat) (bytes : Nat)
  /-- `StreamTx::close`: removed, sending CLOSE. -/
  | closing (id : UInt32)
  deriving DecidableEq, Repr

/-- The task can begin something new. -/
def Task.free : Task → Bool
  | .idle | .opening .refused | .opening (.opened _) | .sending _ .sent | .sending _ .broken => true
  | _ => false

inductive TaskAct
  | tryOpen
  | send (stream : Nat) (data : Bytes)
  | grant (stream : Nat) (bytes : Nat)
  | close (stream : Nat)
  /-- `close_stream`, as `MuxStreamIo` calls it on shutdown and on drop. -/
  | closeStream (stream : Nat) (sent : Bool)
  /-- `flush_credit`. -/
  | flushCredit (stream : Nat) (bytes : Nat) (sent : Bool)
  /-- A chunk is taken out of the inbox. -/
  | recv (stream : Nat)
  /-- The receive half is dropped. -/
  | hangUp (stream : Nat)
  /-- The next piece of what the task is in the middle of. -/
  | proceed
  deriving DecidableEq, Repr

/-- Begin an operation on a stream someone has been given. -/
def Session.begin (s : Session) : TaskAct → Option (Session × Task)
  | .tryOpen => some (s, .opening .reserve)
  | .send stream data => if stream < s.created then some (s, .sending stream (.next data)) else none
  | .grant stream bytes => if stream < s.created then some (s, .granting stream bytes) else none
  | .close stream =>
    if stream < s.created then some (s.remove (s.arena stream).id, .closing (s.arena stream).id)
    else none
  | .closeStream stream sent =>
    if stream < s.created then (s.closeStream stream sent).map (·, .idle) else none
  | .flushCredit stream bytes sent =>
    if stream < s.created then
      (s.trySends (.grant (s.arena stream).id bytes) sent).map (·, .idle)
    else none
  | .recv stream => if stream < s.created then (s.take stream).map (·.2, .idle) else none
  | .hangUp stream => if stream < s.created then some (s.hangUp stream, .idle) else none
  | .proceed => none

/-- The next piece of an operation that has begun. -/
def Session.proceed (s : Session) : Task → Option (Session × Task)
  | .idle => none
  | .opening stage => (s.openStep stage).map fun (s, stage) => (s, .opening stage)
  | .sending stream stage => (s.sendStep stream stage).map fun (s, stage) => (s, .sending stream stage)
  | .granting stream bytes => s.sends (.grant (s.arena stream).id bytes) .idle .idle
  | .closing id => s.sends (.control id .close) .idle .idle

def Session.taskStep (s : Session) (task : Task) (act : TaskAct) : Option (Session × Task) :=
  if act = .proceed then s.proceed task else if task.free then s.begin act else none

/-- A session and its users. -/
structure Users where
  session : Session
  tasks : Nat → Task := fun _ => .idle

inductive UsersAct
  | link (act : Session.Act)
  | task (name : Nat) (act : TaskAct)
  deriving DecidableEq, Repr

def Users.step (u : Users) : UsersAct → Option Users
  | .link act => (u.session.step act).map fun session => { u with session }
  | .task name act =>
    (u.session.taskStep (u.tasks name) act).map fun (session, task) =>
      { session, tasks := Function.update u.tasks name task }

/-- Two sessions with the same map over the same streams, gates included. -/
structure Alike (s t : Session) : Prop where
  streams : t.streams = s.streams
  created : t.created = s.created
  id : ∀ n, (t.arena n).id = (s.arena n).id
  closed : ∀ n, (t.arena n).credit.closed = (s.arena n).credit.closed

theorem Alike.of_eq {s t : Session} (streams : t.streams = s.streams) (arena : t.arena = s.arena)
    (created : t.created = s.created) : Alike s t :=
  ⟨streams, created, fun n => by rw [arena], fun n => by rw [arena]⟩

theorem Alike.refl (s : Session) : Alike s s := .of_eq rfl rfl rfl

theorem Alike.trans (first : Alike s t) (second : Alike t u) : Alike s u :=
  ⟨second.streams.trans first.streams, second.created.trans first.created,
    fun n => (second.id n).trans (first.id n), fun n => (second.closed n).trans (first.closed n)⟩

theorem alike_modify (s : Session) (stream : Nat) (change : Stream → Stream)
    (id : (change (s.arena stream)).id = (s.arena stream).id)
    (closed : (change (s.arena stream)).credit.closed = (s.arena stream).credit.closed) :
    Alike s (s.modify stream change) :=
  ⟨rfl, rfl, modify_kept s Stream.id id, modify_kept s (fun st => st.credit.closed) closed⟩

theorem alike_enqueue {s t : Session} (queued : s.enqueue frame = some t) : Alike s t := by
  unfold Session.enqueue at queued
  split at queued
  · cases queued
    exact .of_eq rfl rfl rfl
  · cases queued

/-- The step inserts a stream for a peer's OPEN. -/
def Admits (s : Session) (act : Session.Act) : Prop := act = .advance ∧ ∃ id, s.reader = .accepting id

/-- Everything a link step can do to the map and the gates. -/
theorem step_map {s t : Session} (stepped : s.step act = some t) :
    (Alike s t ∧ ¬ Admits s act) ∨ (∃ id, ¬ Admits s act ∧ Alike (s.removeAndClose id) t) ∨
      (¬ Admits s act ∧ Alike s.clear t) ∨
      ∃ id, act = .advance ∧ s.reader = .accepting id ∧ Alike (s.insert id) t := by
  have plain (same : Alike s t) (others : ∀ id, act = .advance → s.reader ≠ .accepting id) :
      Alike s t ∧ ¬ Admits s act :=
    ⟨same, fun ⟨advance, id, reading⟩ => others id advance reading⟩
  cases step_move stepped with
  | heard bytes frame _ _ _ did =>
    cases did with
    | grants aim =>
      have kept := alike_modify { s with log := s.log ++ [frame] } aim
        (fun st => { st with credit := st.credit.addPermits (ByteOrder.ofBe frame.payload) }) rfl rfl
      exact .inl (plain ⟨kept.streams, kept.created, kept.id, kept.closed⟩ (by simp))
    | closes =>
      refine .inr (.inl ⟨frame.id, by simp [Admits], ?_⟩)
      unfold Session.removeAndClose Session.remove
      dsimp only
      split
      · exact .of_eq rfl rfl rfl
      · dsimp only
        exact .of_eq rfl rfl rfl
    | _ => exact .inl (plain (.of_eq rfl rfl rfl) (by simp))
  | admits id reading => exact .inr (.inr (.inr ⟨id, rfl, reading, .of_eq rfl rfl rfl⟩))
  | admitsNobody id reading =>
    have dropped := alike_modify { s.insert id with reader := .idle } s.created
      (fun st => { st with inbox := st.inbox.close }) rfl rfl
    exact .inr (.inr (.inr ⟨id, rfl, reading,
      ⟨dropped.streams, dropped.created, dropped.id, dropped.closed⟩⟩))
  | delivers id stream body reading =>
    have kept := alike_modify s stream
      (fun st => { st with inbox := (s.arena stream).inbox.push body }) rfl rfl
    exact .inl (plain ⟨kept.streams, kept.created, kept.id, kept.closed⟩ (by simp [reading]))
  | drops id stream body reading => exact .inl (plain (.of_eq rfl rfl rfl) (by simp [reading]))
  | overflows id stream body reading => exact .inl (plain (.of_eq rfl rfl rfl) (by simp [reading]))
  | evicts id stream reading =>
    exact .inr (.inl ⟨id, by simp [Admits, reading], .of_eq rfl rfl rfl⟩)
  | dies reading => exact .inr (.inr (.inl ⟨by simp [Admits, reading], .of_eq rfl rfl rfl⟩))
  | ends reading => exact .inl (plain (.of_eq rfl rfl rfl) (by simp [reading]))
  | replies frame _ did =>
    have kept := alike_enqueue did
    exact .inl (plain ⟨kept.streams, kept.created, kept.id, kept.closed⟩ (by simp))
  | shutdownClear => exact .inr (.inr (.inl ⟨by simp [Admits], .of_eq rfl rfl rfl⟩))
  | _ => exact .inl (plain (.of_eq rfl rfl rfl) (by simp))

theorem alike_sends {s t : Session} {ok error res : β}
    (sent : s.sends frame ok error = some (t, res)) : Alike s t := by
  unfold Session.sends at sent
  split at sent
  · obtain ⟨mid, queued, same⟩ := Option.map_eq_some_iff.mp sent
    cases same
    exact alike_enqueue queued
  · cases sent
    exact Alike.refl s

theorem alike_trySends {s t : Session} (tried : s.trySends frame sent = some t) : Alike s t := by
  unfold Session.trySends at tried
  split at tried
  · exact alike_enqueue tried
  · cases tried
    exact Alike.refl s

theorem alike_hangUp (s : Session) (stream : Nat) : Alike s (s.hangUp stream) :=
  alike_modify s stream _ rfl rfl

theorem alike_take {s t : Session} (took : s.take stream = some (chunk, t)) : Alike s t := by
  obtain ⟨⟨first, inbox⟩, -, same⟩ := Option.map_eq_some_iff.mp took
  cases same
  exact alike_modify s stream _ rfl rfl

/-- `StreamTx::send` spends credit and queues frames. -/
theorem alike_sendStep {s t : Session} (stepped : s.sendStep stream stage = some (t, next)) :
    Alike s t := by
  cases stage with
  | acquire rest =>
    simp only [Session.sendStep] at stepped
    split at stepped
    · cases stepped
      exact Alike.refl s
    · obtain ⟨credit, got, same⟩ := Option.map_eq_some_iff.mp stepped
      obtain ⟨-, -, rfl⟩ := Semaphore.acquireMany_eq_some.mp got
      cases same
      exact alike_modify s stream _ rfl rfl
  | queue chunk rest => exact alike_sends stepped
  | sent => cases stepped
  | broken => cases stepped

/-- Everything `try_open_stream` can do to the map and the gates. -/
theorem openStep_map {s t : Session} (stepped : s.openStep stage = some (t, next)) :
    (Alike s t ∧ (∀ id, stage ≠ .insert id) ∧ ∀ n, stage ≠ .giveUp n) ∨
    (∃ id, stage = .insert id ∧ Alike (s.insert id) t) ∨
    (∃ n, stage = .giveUp n ∧ Alike (s.remove (s.arena n).id) t) := by
  cases stage with
  | reserve =>
    simp only [Session.openStep, Session.reserve] at stepped
    split at stepped
    · rename_i got
      split at got <;> cases got
      cases stepped
      exact .inl ⟨.of_eq rfl rfl rfl, by simp⟩
    · cases stepped
      exact .inl ⟨Alike.refl s, by simp⟩
  | allocate =>
    cases stepped
    exact .inl ⟨.of_eq rfl rfl rfl, by simp⟩
  | insert id =>
    cases stepped
    exact .inr (.inl ⟨id, rfl, Alike.refl _⟩)
  | announce n => exact .inl ⟨alike_sends stepped, by simp⟩
  | giveUp n =>
    cases stepped
    exact .inr (.inr ⟨n, rfl, alike_hangUp _ n⟩)
  | refused => cases stepped
  | opened n => cases stepped

/-- Everything the beginning of an operation can do to the map and the gates. -/
private theorem begin_map {s t : Session} (stepped : s.begin act = some (t, task)) :
    (Alike s t ∧ (∀ n, act ≠ .close n) ∧ ∀ n sent, act ≠ .closeStream n sent) ∨
    (∃ n sent, act = .closeStream n sent ∧ Alike (s.removeAndClose (s.arena n).id) t) ∨
    (∃ n, act = .close n ∧ Alike (s.remove (s.arena n).id) t) := by
  cases act with
  | tryOpen =>
    cases stepped
    exact .inl ⟨Alike.refl s, by simp⟩
  | proceed => cases stepped
  | send n data =>
    obtain ⟨-, same⟩ := Option.ite_none_right_eq_some.mp stepped
    cases same
    exact .inl ⟨Alike.refl s, by simp⟩
  | grant n bytes =>
    obtain ⟨-, same⟩ := Option.ite_none_right_eq_some.mp stepped
    cases same
    exact .inl ⟨Alike.refl s, by simp⟩
  | close n =>
    obtain ⟨-, same⟩ := Option.ite_none_right_eq_some.mp stepped
    cases same
    exact .inr (.inr ⟨n, rfl, Alike.refl _⟩)
  | closeStream n sent =>
    obtain ⟨-, got⟩ := Option.ite_none_right_eq_some.mp stepped
    obtain ⟨mid, tried, same⟩ := Option.map_eq_some_iff.mp got
    cases same
    exact .inr (.inl ⟨n, sent, rfl, alike_trySends tried⟩)
  | flushCredit n bytes sent =>
    obtain ⟨-, got⟩ := Option.ite_none_right_eq_some.mp stepped
    obtain ⟨mid, tried, same⟩ := Option.map_eq_some_iff.mp got
    cases same
    exact .inl ⟨alike_trySends tried, by simp⟩
  | recv n =>
    obtain ⟨-, got⟩ := Option.ite_none_right_eq_some.mp stepped
    obtain ⟨⟨chunk, mid⟩, took, same⟩ := Option.map_eq_some_iff.mp got
    cases same
    exact .inl ⟨alike_take took, by simp⟩
  | hangUp n =>
    obtain ⟨-, same⟩ := Option.ite_none_right_eq_some.mp stepped
    cases same
    exact .inl ⟨alike_hangUp s n, by simp⟩

/-- Everything a task's step can do to the map and the gates. -/
theorem taskStep_map {s t : Session} (stepped : s.taskStep task act = some (t, task')) :
    (Alike s t ∧ ((∀ n, act ≠ .close n) ∧ ∀ n sent, act ≠ .closeStream n sent) ∧
      (act = .proceed → (∀ id, task ≠ .opening (.insert id)) ∧ ∀ n, task ≠ .opening (.giveUp n))) ∨
    (∃ n sent, act = .closeStream n sent ∧ Alike (s.removeAndClose (s.arena n).id) t) ∨
    (∃ id, act = .proceed ∧ task = .opening (.insert id) ∧ Alike (s.insert id) t) ∨
    (∃ n, act = .proceed ∧ task = .opening (.giveUp n) ∧ Alike (s.remove (s.arena n).id) t) ∨
    (∃ n, act = .close n ∧ Alike (s.remove (s.arena n).id) t) := by
  unfold Session.taskStep at stepped
  split at stepped
  · rename_i going
    subst going
    cases task with
    | idle => cases stepped
    | opening stage =>
      obtain ⟨⟨mid, next⟩, opened, same⟩ := Option.map_eq_some_iff.mp stepped
      cases same
      obtain ⟨same, others⟩ | ⟨id, rfl, same⟩ | ⟨n, rfl, same⟩ := openStep_map opened
      · exact .inl ⟨same, by simp, by simpa using others⟩
      · exact .inr (.inr (.inl ⟨id, rfl, rfl, same⟩))
      · exact .inr (.inr (.inr (.inl ⟨n, rfl, rfl, same⟩)))
    | sending n stage =>
      obtain ⟨⟨mid, next⟩, sent, same⟩ := Option.map_eq_some_iff.mp stepped
      cases same
      exact .inl ⟨alike_sendStep sent, by simp⟩
    | granting n bytes => exact .inl ⟨alike_sends stepped, by simp⟩
    | closing id => exact .inl ⟨alike_sends stepped, by simp⟩
  · rename_i begun
    obtain ⟨-, stepped⟩ := Option.ite_none_right_eq_some.mp stepped
    obtain ⟨same, others⟩ | removed | ⟨n, rfl, same⟩ := begin_map stepped
    · exact .inl ⟨same, others, fun going => absurd going begun⟩
    · exact .inr (.inl removed)
    · exact .inr (.inr (.inr (.inr ⟨n, rfl, same⟩)))

/-- The map names streams that exist, under their own ids, with open gates. -/
structure Valid (s : Session) : Prop where
  known : ∀ {id : UInt32} {n : Nat}, s.streams id = some n → n < s.created ∧ (s.arena n).id = id
  gate : ∀ {id : UInt32} {n : Nat}, s.streams id = some n → (s.arena n).credit.closed = false

/-- Every stream that has left the map has its credit gate closed, so a send
that waits for credit on it fails. -/
def DeadClosed (s : Session) : Prop :=
  ∀ n < s.created, s.streams (s.arena n).id ≠ some n → (s.arena n).credit.closed = true

variable {s t : Session} {id : UInt32}

theorem Valid.alike (valid : Valid s) (same : Alike s t) : Valid t := by
  constructor
  · intro id n found
    rw [same.streams] at found
    rw [same.created, same.id]
    exact valid.known found
  · intro id n found
    rw [same.streams] at found
    rw [same.closed]
    exact valid.gate found

theorem deadClosed_alike (same : Alike s t) : DeadClosed t ↔ DeadClosed s := by
  simp only [DeadClosed, same.streams, same.created, same.id, same.closed]

theorem valid_remove (valid : Valid s) (id : UInt32) : Valid (s.remove id) := by
  unfold Session.remove
  split
  · exact valid
  · constructor <;> intro other n found <;>
    · dsimp only at found ⊢
      by_cases same : other = id
      · simp [same] at found
      · rw [Function.update_of_ne same] at found
        first
          | exact valid.known found
          | exact valid.gate found

theorem valid_insert (valid : Valid s) (id : UInt32) : Valid (s.insert id) := by
  constructor <;> intro other n found <;> simp only [Session.insert] at found ⊢ <;>
  · by_cases same : other = id
    · subst same
      simp only [Function.update_self, Option.some.injEq] at found
      subst found
      simp
    · rw [Function.update_of_ne same] at found
      have old := valid.known found
      have older : n ≠ s.created := by omega
      rw [Function.update_of_ne older]
      first
        | exact ⟨by omega, old.2⟩
        | exact valid.gate found

/-- Removing an entry without closing its gate is harmless only when there is
no such entry. -/
theorem deadClosed_remove (valid : Valid s) (dead : DeadClosed s) :
    DeadClosed (s.remove id) ↔ s.streams id = none := by
  unfold Session.remove
  split
  · rename_i absent
    exact ⟨fun _ => absent, fun _ => dead⟩
  · rename_i n found
    refine ⟨fun still => ?_, fun absent => by simp [absent] at found⟩
    obtain ⟨within, named⟩ := valid.known found
    have closed := still n within (by simp [named])
    simp [valid.gate found] at closed

/-- A new entry detaches whatever was under its id. -/
theorem deadClosed_insert (valid : Valid s) (dead : DeadClosed s) :
    DeadClosed (s.insert id) ↔ s.streams id = none := by
  constructor
  · intro still
    cases found : s.streams id with
    | none => rfl
    | some n =>
      obtain ⟨within, named⟩ := valid.known found
      have older : n ≠ s.created := by omega
      have closed := still n (by simp only [Session.insert]; omega)
      simp only [Session.insert, Function.update_of_ne older, named, Function.update_self] at closed
      simp [valid.gate found, Ne.symm older] at closed
  · intro absent n within detached
    simp only [Session.insert] at within detached ⊢
    by_cases new : n = s.created
    · subst new
      simp at detached
    · rw [Function.update_of_ne new] at detached ⊢
      refine dead n (by omega) fun found => ?_
      by_cases same : (s.arena n).id = id
      · rw [same, absent] at found
        cases found
      · rw [Function.update_of_ne same] at detached
        exact detached found

/-- After `removeAndClose` the stream is out of the map and nothing else has
changed but its gate. -/
theorem removeAndClose_gates (found : s.streams id = some stream) (n : Nat) :
    (s.removeAndClose id).streams = Function.update s.streams id none ∧
      (s.removeAndClose id).created = s.created ∧
      ((s.removeAndClose id).arena n).id = (s.arena n).id ∧
      ((s.removeAndClose id).arena n).credit.closed =
        if n = stream then true else (s.arena n).credit.closed := by
  simp only [Session.removeAndClose, Session.remove, found, Session.closeGate, Session.modify]
  by_cases same : n = stream
  · subst same
    simp
  · simp [same]

theorem valid_removeAndClose (valid : Valid s) (id : UInt32) : Valid (s.removeAndClose id) := by
  cases found : s.streams id with
  | none => simpa [Session.removeAndClose, found] using valid
  | some stream =>
    constructor <;> intro other n still <;>
    · obtain ⟨streams, created, named, closed⟩ := removeAndClose_gates found n
      rw [streams] at still
      by_cases same : other = id
      · simp [same] at still
      · rw [Function.update_of_ne same] at still
        have old := valid.known still
        have different : n ≠ stream := fun eq => same (by rw [← old.2, eq, (valid.known found).2])
        first
          | rw [created, named]; exact old
          | rw [closed, if_neg different]; exact valid.gate still

theorem deadClosed_removeAndClose (dead : DeadClosed s) (id : UInt32) :
    DeadClosed (s.removeAndClose id) := by
  cases found : s.streams id with
  | none => simpa [Session.removeAndClose, found] using dead
  | some stream =>
    intro n within detached
    obtain ⟨streams, created, named, closed⟩ := removeAndClose_gates found n
    rw [closed]
    split
    · rfl
    · rename_i different
      rw [created] at within
      refine dead n within fun entry => ?_
      rw [streams, named] at detached
      by_cases same : (s.arena n).id = id
      · rw [same, found] at entry
        exact different (Option.some.inj entry).symm
      · rw [Function.update_of_ne same] at detached
        exact detached entry

theorem valid_clear (s : Session) : Valid s.clear := by
  constructor <;> intro id n found <;> cases found

theorem deadClosed_clear (dead : DeadClosed s) : DeadClosed s.clear := by
  intro n within _
  simp only [Session.clear] at within ⊢
  split
  · rfl
  · rename_i detached
    exact dead n within detached

/-- The id whose entry a link step takes out of the map without touching its
gate: that of a peer's OPEN. -/
def Session.detaches (s : Session) (act : Session.Act) : Option UInt32 :=
  match act, s.reader with
  | .advance, .accepting id => some id
  | _, _ => none

/-- The id whose entry a task's step takes out of the map without touching its
gate: on an insert, in `StreamTx::close` and after a failed open. -/
def Session.taskDetaches (s : Session) (task : Task) (act : TaskAct) : Option UInt32 :=
  match act, task with
  | .proceed, .opening (.insert id) => some id
  | .proceed, .opening (.giveUp stream) => some (s.arena stream).id
  | .close stream, _ => some (s.arena stream).id
  | _, _ => none

/-- The step leaves no gate open behind it: where it detaches an entry without
closing the gate, there is none. -/
def Users.Permits (u : Users) : UsersAct → Prop
  | .link act => ∀ id ∈ u.session.detaches act, u.session.streams id = none
  | .task name act => ∀ id ∈ u.session.taskDetaches (u.tasks name) act, u.session.streams id = none

instance (u : Users) : (act : UsersAct) → Decidable (u.Permits act)
  | .link _ => Option.decidableForallMem _
  | .task _ _ => Option.decidableForallMem _

/-- A link step keeps the map sound. -/
theorem valid_step (valid : Valid s) (stepped : s.step act = some t) : Valid t := by
  obtain ⟨same, -⟩ | ⟨id, -, same⟩ | ⟨-, same⟩ | ⟨id, -, -, same⟩ := step_map stepped
  · exact valid.alike same
  · exact (valid_removeAndClose valid id).alike same
  · exact (valid_clear s).alike same
  · exact (valid_insert valid id).alike same

/-- Every step keeps the map sound. -/
theorem users_valid {u next : Users} (valid : Valid u.session)
    (stepped : u.step act = some next) : Valid next.session := by
  cases act with
  | link act =>
    obtain ⟨session, done, rfl⟩ := Option.map_eq_some_iff.mp stepped
    exact valid_step valid done
  | task name act =>
    obtain ⟨⟨session, task⟩, done, rfl⟩ := Option.map_eq_some_iff.mp stepped
    obtain ⟨same, -⟩ | ⟨n, sent, -, same⟩ | ⟨id, -, -, same⟩ | ⟨n, -, -, same⟩ | ⟨n, -, same⟩ :=
      taskStep_map done
    · exact valid.alike same
    · exact (valid_removeAndClose valid _).alike same
    · exact (valid_insert valid id).alike same
    · exact (valid_remove valid _).alike same
    · exact (valid_remove valid _).alike same

private theorem users_deadClosed {u next : Users} (valid : Valid u.session)
    (dead : DeadClosed u.session) (stepped : u.step act = some next) :
    u.Permits act ↔ DeadClosed next.session := by
  cases act with
  | link act =>
    obtain ⟨session, done, rfl⟩ := Option.map_eq_some_iff.mp stepped
    have plain (others : ¬ Admits u.session act) : u.Permits (.link act) := by
      have nothing : u.session.detaches act = none := by
        unfold Session.detaches
        split
        · rename_i admitted
          exact absurd ⟨rfl, _, admitted⟩ others
        · rfl
      simp [Users.Permits, nothing]
    obtain ⟨same, others⟩ | ⟨id, others, same⟩ | ⟨others, same⟩ | ⟨id, rfl, admitted, same⟩ :=
      step_map done
    · exact iff_of_true (plain others) ((deadClosed_alike same).mpr dead)
    · exact iff_of_true (plain others)
        ((deadClosed_alike same).mpr (deadClosed_removeAndClose dead id))
    · exact iff_of_true (plain others) ((deadClosed_alike same).mpr (deadClosed_clear dead))
    · rw [deadClosed_alike same, deadClosed_insert valid dead]
      simp [Users.Permits, Session.detaches, admitted]
  | task name act =>
    obtain ⟨⟨session, task⟩, done, rfl⟩ := Option.map_eq_some_iff.mp stepped
    obtain ⟨same, closes, opens⟩ | ⟨n, sent, rfl, same⟩ | ⟨id, rfl, drawn, same⟩ |
      ⟨n, rfl, drawn, same⟩ | ⟨n, rfl, same⟩ := taskStep_map done
    · have nothing : u.session.taskDetaches (u.tasks name) act = none := by
        unfold Session.taskDetaches
        split
        · rename_i drawn
          exact absurd drawn ((opens rfl).1 _)
        · rename_i drawn
          exact absurd drawn ((opens rfl).2 _)
        · exact absurd rfl (closes.1 _)
        · rfl
      exact iff_of_true (by simp [Users.Permits, nothing]) ((deadClosed_alike same).mpr dead)
    · refine iff_of_true (by simp [Users.Permits, Session.taskDetaches]) ?_
      exact (deadClosed_alike same).mpr (deadClosed_removeAndClose dead _)
    · rw [deadClosed_alike same, deadClosed_insert valid dead]
      simp [Users.Permits, Session.taskDetaches, drawn]
    · rw [deadClosed_alike same, deadClosed_remove valid dead]
      simp [Users.Permits, Session.taskDetaches, drawn]
    · rw [deadClosed_alike same, deadClosed_remove valid dead]
      simp [Users.Permits, Session.taskDetaches]

/-- A dead stream parks its sender exactly when some step detached it behind its
back: along a run, every stream out of the map has its gate closed if and only
if no `StreamTx::close` and no failed open removed a live entry and no insert
displaced one. -/
theorem dead_streams_have_closed_gates (maxStreams : Nat) (onOpen : Bool) (actions : List UsersAct)
    {t : Users} (ran : run Users.step { session := .start maxStreams onOpen } actions = some t) :
    (∀ before, before <+: actions → ∀ mid,
      run Users.step { session := .start maxStreams onOpen } before = some mid →
        DeadClosed mid.session) ↔
      Meets Users.step Users.Permits { session := .start maxStreams onOpen } actions := by
  apply always_iff_meets (fun u => Valid u.session) (fun u => DeadClosed u.session) _ _ _ _ ran
  · intro u act next valid stepped
    exact users_valid valid stepped
  · intro u act next valid dead stepped
    exact users_deadClosed valid dead stepped
  · constructor <;> intro id n found <;> cases found
  · intro n within
    exact absurd within (Nat.not_lt_zero n)

/-- One stream is opened, and its owner waits for nothing before closing it. -/
private def openThenClose : List UsersAct :=
  [.task 0 .tryOpen, .task 0 .proceed, .task 0 .proceed, .task 0 .proceed, .task 0 .proceed,
    .task 0 (.close 0)]

private def openPeerClose : List UsersAct :=
  [.task 0 .tryOpen, .task 0 .proceed, .task 0 .proceed, .task 0 .proceed, .task 0 .proceed,
    .link (.recv [0, 0, 0, 1, 2, 0, 0, 0]), .task 0 (.close 0)]

/-- `StreamTx::close` leaves the gate of the stream it removes open. -/
theorem closed_stream_keeps_gate_open :
    ∃ actions t, run Users.step { session := .start 1 false } actions = some t ∧
      ¬ DeadClosed t.session := by
  have reached : (run Users.step { session := .start 1 false } openThenClose).map (fun u =>
      (u.session.created, (u.session.arena 0).id, u.session.streams 1,
        (u.session.arena 0).credit.closed)) = some (1, 1, none, false) := by decide +kernel
  obtain ⟨t, ran, ends⟩ := Option.map_eq_some_iff.mp reached
  simp only [Prod.mk.injEq] at ends
  obtain ⟨created, named, absent, gate⟩ := ends
  refine ⟨openThenClose, t, ran, fun dead => ?_⟩
  have closed := dead 0 (by omega) (by simp [named, absent])
  simp [gate] at closed

/-- A stream that the peer closed first may be closed again. -/
theorem dead_streams_have_closed_gates_after_peer :
    ∃ t, run Users.step { session := .start 1 false } openPeerClose = some t ∧
      DeadClosed t.session := by
  have checked : (run Users.step { session := .start 1 false } openPeerClose).isSome ∧
      Meets Users.step Users.Permits { session := .start 1 false } openPeerClose := by decide +kernel
  obtain ⟨t, ran⟩ := Option.isSome_iff_exists.mp checked.1
  refine ⟨t, ran, ?_⟩
  exact (dead_streams_have_closed_gates 1 false openPeerClose ran).mpr checked.2 openPeerClose
    (List.prefix_refl _) t ran

end DshProxy.Mux

import DshProxy.StreamBudget
import DshProxy.StreamOwners

/-! The end of a link. Both teardowns first clear the map and then kill the
outbox; an open first inserts its stream and then announces it, and cleans up
only if the announcement fails. What slips in between, inserted after the map
was cleared and announced before the outbox died, stays for ever. -/
namespace DshProxy.Mux
open Sync Wire Transitions

variable {s t : Session}

/-- The part of a session that only the link's own tasks change. -/
def Session.linkSide (s : Session) : Nat × Reader × List Frame × Bool × Nat × Bool :=
  (s.fed, s.reader, s.log, s.onOpen, s.shutdowns, s.aborted)

@[simp] theorem linkSide_remove (s : Session) (id : UInt32) : (s.remove id).linkSide = s.linkSide := by
  unfold Session.remove
  split <;> rfl

@[simp] theorem linkSide_removeAndClose (s : Session) (id : UInt32) :
    (s.removeAndClose id).linkSide = s.linkSide := by
  unfold Session.removeAndClose
  split
  · rfl
  · exact linkSide_remove s id

theorem linkSide_enqueue (queued : s.enqueue frame = some t) : t.linkSide = s.linkSide := by
  obtain ⟨rfl, -, -⟩ := enqueue_eq queued
  rfl

theorem linkSide_sends {ok error res : β} (sent : s.sends frame ok error = some (t, res)) :
    t.linkSide = s.linkSide := by
  obtain ⟨queued, -⟩ | ⟨-, rfl, -⟩ := sends_cases sent
  · exact linkSide_enqueue queued
  · rfl

theorem linkSide_trySends (tried : s.trySends frame sent = some t) : t.linkSide = s.linkSide := by
  unfold Session.trySends at tried
  split at tried
  · exact linkSide_enqueue tried
  · cases tried
    rfl

theorem linkSide_sendStep (stepped : s.sendStep stream stage = some (t, next)) :
    t.linkSide = s.linkSide := by
  cases sendStep_move stepped with
  | queues chunk rest queued => exact linkSide_enqueue queued
  | _ => rfl

theorem linkSide_openStep (stepped : s.openStep stage = some (t, next)) : t.linkSide = s.linkSide := by
  cases stage with
  | reserve =>
    simp only [Session.openStep, Session.reserve] at stepped
    split at stepped
    · rename_i got
      obtain ⟨-, same⟩ := Option.ite_none_left_eq_some.mp got
      cases same
      cases stepped
      rfl
    · cases stepped
      rfl
  | announce n => exact linkSide_sends stepped
  | giveUp n =>
    cases stepped
    exact linkSide_remove s _
  | allocate =>
    cases stepped
    rfl
  | insert id =>
    cases stepped
    rfl
  | refused => cases stepped
  | opened n => cases stepped

private theorem linkSide_begin (begun : s.begin act = some (t, task)) : t.linkSide = s.linkSide := by
  cases act with
  | tryOpen =>
    cases begun
    rfl
  | proceed => cases begun
  | close n =>
    obtain ⟨-, same⟩ := Option.ite_none_right_eq_some.mp begun
    cases same
    exact linkSide_remove s _
  | closeStream n sent =>
    obtain ⟨-, got⟩ := Option.ite_none_right_eq_some.mp begun
    obtain ⟨mid, tried, same⟩ := Option.map_eq_some_iff.mp got
    cases same
    exact (linkSide_trySends tried).trans (linkSide_removeAndClose s _)
  | flushCredit n bytes sent =>
    obtain ⟨-, got⟩ := Option.ite_none_right_eq_some.mp begun
    obtain ⟨mid, tried, same⟩ := Option.map_eq_some_iff.mp got
    cases same
    exact linkSide_trySends tried
  | recv n =>
    obtain ⟨-, got⟩ := Option.ite_none_right_eq_some.mp begun
    obtain ⟨⟨chunk, mid⟩, took, same⟩ := Option.map_eq_some_iff.mp got
    obtain ⟨⟨first, inbox⟩, -, taken⟩ := Option.map_eq_some_iff.mp took
    cases taken
    cases same
    rfl
  | _ =>
    obtain ⟨-, same⟩ := Option.ite_none_right_eq_some.mp begun
    cases same
    rfl

theorem linkSide_taskStep (stepped : s.taskStep task act = some (t, task')) :
    t.linkSide = s.linkSide := by
  unfold Session.taskStep at stepped
  split at stepped
  · cases task with
    | idle => cases stepped
    | opening stage =>
      obtain ⟨⟨mid, next⟩, opened, same⟩ := Option.map_eq_some_iff.mp stepped
      cases same
      exact linkSide_openStep opened
    | sending n stage =>
      obtain ⟨⟨mid, next⟩, sent, same⟩ := Option.map_eq_some_iff.mp stepped
      cases same
      exact linkSide_sendStep sent
    | granting n bytes => exact linkSide_sends stepped
    | closing id => exact linkSide_sends stepped
  · exact linkSide_begin (Option.ite_none_right_eq_some.mp stepped).2

variable {u next : Users}

/-- A teardown has cleared the map. -/
def Session.Torn (s : Session) : Prop :=
  s.reader = .aborting ∨ s.reader = .ended ∨ 0 < s.shutdowns ∨ s.aborted = true

instance (s : Session) : Decidable s.Torn := inferInstanceAs (Decidable (_ ∨ _ ∨ _ ∨ _))

instance (s : Session) (n : Nat) : Decidable (s.Entry n) := inferInstanceAs (Decidable (_ = _))

/-- The stream the open is about to announce. -/
def Task.announces : Task → Option Nat
  | .opening (.announce n) => some n
  | _ => none

/-- Once the map has been cleared, no entry gets its OPEN out and the reader
admits no stream of the peer's. -/
def Users.Barred (u : Users) : UsersAct → Prop
  | .link .advance => u.session.reader.reserves = true → ¬ u.session.Torn
  | .task name .proceed => ∀ n ∈ (u.tasks name).announces,
      u.session.out.isOpen = true → u.session.Entry n → ¬ u.session.Torn
  | _ => True

instance (u : Users) : (act : UsersAct) → Decidable (u.Barred act)
  | .link .advance => inferInstanceAs (Decidable (_ → ¬ u.session.Torn))
  | .task name .proceed =>
    inferInstanceAs (Decidable (∀ n ∈ (u.tasks name).announces, _ → _ → ¬ u.session.Torn))
  | .link (.recv _) | .link .lapse | .link .reply | .link (.takeBatch _) | .link .feed
  | .link .writerEnds | .link .readerAborted | .link .release | .link .shutdownClear
  | .link .shutdownAbort | .task _ .tryOpen | .task _ (.send _ _) | .task _ (.grant _ _)
  | .task _ (.close _) | .task _ (.closeStream _ _) | .task _ (.flushCredit _ _ _)
  | .task _ (.recv _) | .task _ (.hangUp _) => isTrue trivial

/-- The open is under way. -/
def Task.opens : Task → Bool
  | .opening .refused | .opening (.opened _) => false
  | .opening _ => true
  | _ => false

/-- Both link tasks have ended and no open is under way. -/
def Users.Over (u : Users) : Prop :=
  u.session.reader = .ended ∧ u.session.out.isOpen = false ∧ ∀ name, (u.tasks name).opens = false

/-- A teardown begins with clearing the map. -/
private theorem torn_before (stepped : s.step act = some t) (torn : t.Torn) :
    s.Torn ∨ (∀ id, t.streams id = none) := by
  unfold Session.Torn at torn
  have flags (busy : t.reader ≠ .aborting ∧ t.reader ≠ .ended) (shutdowns : t.shutdowns = s.shutdowns)
      (aborted : t.aborted = s.aborted) : s.Torn := by
    obtain aborting | ended | counted | told := torn
    · exact absurd aborting busy.1
    · exact absurd ended busy.2
    · exact .inr (.inr (.inl (shutdowns ▸ counted)))
    · exact .inr (.inr (.inr (aborted ▸ told)))
  have removed (s : Session) (id : UInt32) : (s.removeAndClose id).shutdowns = s.shutdowns ∧
      (s.removeAndClose id).aborted = s.aborted := by
    have side := linkSide_removeAndClose s id
    simp only [Session.linkSide, Prod.mk.injEq] at side
    exact side.2.2.2.2
  cases step_move stepped with
  | heard plain frame idle _ _ did =>
    refine .inl ?_
    cases did with
    | grants =>
      have busy : s.reader ≠ .aborting ∧ s.reader ≠ .ended := by simp [idle]
      exact flags busy rfl rfl
    | ignores =>
      have busy : s.reader ≠ .aborting ∧ s.reader ≠ .ended := by simp [idle]
      exact flags busy rfl rfl
    | closes =>
      have busy : s.reader ≠ .aborting ∧ s.reader ≠ .ended := by simp [idle]
      refine flags ?_ (removed _ _).1 (removed _ _).2
      rw [(quiet_removeAndClose _ _).reader]
      exact busy
    | _ => exact flags ⟨nofun, nofun⟩ rfl rfl
  | dies => exact .inr fun _ => rfl
  | ends reading => exact .inl (.inl reading)
  | replies frame _ did =>
    have side := linkSide_enqueue did
    simp only [Session.linkSide, Prod.mk.injEq] at side
    exact .inl (flags ⟨nofun, nofun⟩ side.2.2.2.2.1 side.2.2.2.2.2)
  | readerAborted _ told => exact .inl (.inr (.inr (.inr told)))
  | evicts id => exact .inl (flags ⟨nofun, nofun⟩ (removed s id).1 (removed s id).2)
  | shutdownClear => exact .inr fun _ => rfl
  | shutdownAbort some => exact .inl (.inr (.inr (.inl some)))
  | takeBatch => exact .inl torn
  | feed => exact .inl torn
  | writerEnds => exact .inl torn
  | release => exact .inl torn
  | _ => exact .inl (flags ⟨nofun, nofun⟩ rfl rfl)

/-- Where the reader admits nobody, a link step brings no entry. -/
private theorem step_entries (stepped : s.step act = some t) (closed : ¬ Admits s act) (entry : t.Entry n) :
    s.Entry n := by
  obtain ⟨same, -⟩ | ⟨id, -, same⟩ | ⟨-, same⟩ | ⟨id, did, reading, -⟩ := step_map stepped
  · exact (entry_alike same).mp entry
  · exact ((entry_removeAndClose s id n).mp ((entry_alike same).mp entry)).1
  · rw [entry_alike same] at entry
    cases entry
  · exact absurd ⟨did, id, reading⟩ closed

/-- Once the map has been cleared, whatever is in it is an open still trying to
announce its stream, or about to give it up. -/
structure Users.Cleared (u : Users) : Prop where
  valid : Valid u.session
  awaited : u.session.Torn → ∀ n, u.session.Entry n →
    ∃ name, u.tasks name = .opening (.announce n) ∨ u.tasks name = .opening (.giveUp n)

private theorem cleared_link (cleared : u.Cleared) (barred : u.Barred (.link act))
    (stepped : u.session.step act = some t) : ({ u with session := t } : Users).Cleared := by
  refine ⟨valid_step cleared.valid stepped, fun torn n entry => ?_⟩
  obtain before | empty := torn_before stepped torn
  · refine cleared.awaited before n (step_entries stepped ?_ entry)
    rintro ⟨rfl, id, reading⟩
    exact barred (by rw [reading]; rfl) before
  · rw [show t.Entry n ↔ _ from Iff.rfl, Session.Entry, empty] at entry
    cases entry

/-- What an open that has inserted its stream does next. -/
private theorem announcing_step (stepped : s.taskStep task act = some (t, task'))
    (waiting : task = .opening (.announce n) ∨ task = .opening (.giveUp n)) :
    act = .proceed ∧ ((task = .opening (.announce n) ∧ (s.out.isOpen = true ∨ task' = .opening (.giveUp n))) ∨
      ¬ t.Entry n) := by
  obtain rfl | rfl := waiting
  · unfold Session.taskStep at stepped
    split at stepped
    · rename_i going
      obtain ⟨⟨mid, next⟩, opened, same⟩ := Option.map_eq_some_iff.mp stepped
      cases same
      obtain ⟨queued, -⟩ | ⟨-, -, rfl⟩ := sends_cases opened
      · exact ⟨going, .inl ⟨rfl, .inl (enqueue_eq queued).2.1⟩⟩
      · exact ⟨going, .inl ⟨rfl, .inr rfl⟩⟩
    · obtain ⟨free, -⟩ := Option.ite_none_right_eq_some.mp stepped
      cases free
  · unfold Session.taskStep at stepped
    split at stepped
    · rename_i going
      cases stepped
      refine ⟨going, .inr fun entry => ?_⟩
      have gone := (entry_remove s _ n).mp ((entry_alike (alike_hangUp _ n)).mp entry)
      exact gone.2 rfl
    · obtain ⟨free, -⟩ := Option.ite_none_right_eq_some.mp stepped
      cases free

private theorem cleared_task (cleared : u.Cleared) (barred : u.Barred (.task name act))
    (stepped : u.session.taskStep (u.tasks name) act = some (t, task)) (valid : Valid t) :
    ({ session := t, tasks := Function.update u.tasks name task } : Users).Cleared := by
  refine ⟨valid, fun torn n entry => ?_⟩
  dsimp only at torn entry ⊢
  have before : u.session.Torn := by
    have side := linkSide_taskStep stepped
    simp only [Session.linkSide, Prod.mk.injEq] at side
    obtain ⟨-, reader, -, -, shutdowns, aborted⟩ := side
    unfold Session.Torn at torn ⊢
    rw [reader, shutdowns, aborted] at torn
    exact torn
  -- An entry that was there has its open, and that has not got away since.
  have older (was : u.session.Entry n) : ∃ other,
      Function.update u.tasks name task other = .opening (.announce n) ∨
        Function.update u.tasks name task other = .opening (.giveUp n) := by
    obtain ⟨other, waiting⟩ := cleared.awaited before n was
    by_cases same : other = name
    · subst same
      refine ⟨other, ?_⟩
      rw [Function.update_self]
      obtain ⟨rfl, ⟨announcing, opened | gives⟩ | gone⟩ := announcing_step stepped waiting
      · exact absurd before (barred n (by rw [announcing]; rfl) opened was)
      · exact .inr gives
      · exact absurd entry gone
    · refine ⟨other, ?_⟩
      rw [Function.update_of_ne same]
      exact waiting
  obtain ⟨same, -⟩ | ⟨k, sent, -, same⟩ | ⟨id, rfl, holding, same⟩ | ⟨k, -, -, same⟩ | ⟨k, -, same⟩ :=
    taskStep_map stepped
  · exact older ((entry_alike same).mp entry)
  · exact older ((entry_removeAndClose _ _ n).mp ((entry_alike same).mp entry)).1
  · rw [entry_alike same] at entry
    obtain ⟨known, -⟩ := (valid_insert cleared.valid id).known entry
    obtain known | rfl := Nat.lt_succ_iff_lt_or_eq.mp known
    · exact older ((entry_insert known id).mp entry).1
    · refine ⟨name, .inl ?_⟩
      rw [holding] at stepped
      cases stepped
      exact Function.update_self _ _ _
  · exact older ((entry_remove _ _ n).mp ((entry_alike same).mp entry)).1
  · exact older ((entry_remove _ _ n).mp ((entry_alike same).mp entry)).1

theorem Users.Cleared.step (cleared : u.Cleared) (barred : u.Barred act)
    (stepped : u.step act = some next) : next.Cleared := by
  have valid := users_valid cleared.valid stepped
  cases act with
  | link act =>
    obtain ⟨session, did, rfl⟩ := Option.map_eq_some_iff.mp stepped
    exact cleared_link cleared barred did
  | task name act =>
    obtain ⟨⟨session, task⟩, did, rfl⟩ := Option.map_eq_some_iff.mp stepped
    exact cleared_task cleared barred did valid

/-- The id under which the step takes an entry out of the map without touching
its gate. -/
def Users.detaches (u : Users) : UsersAct → Option UInt32
  | .link act => u.session.detaches act
  | .task name act => u.session.taskDetaches (u.tasks name) act

/-- The step does not detach the stream behind its gate. -/
def Users.Leaves (n : Nat) (u : Users) (act : UsersAct) : Prop :=
  ∀ id ∈ u.detaches act, u.session.streams id ≠ some n

instance (n : Nat) (u : Users) (act : UsersAct) : Decidable (u.Leaves n act) :=
  Option.decidableForallMem _

/-- The gate of a stream that has left the map is closed. -/
def Session.Shut (s : Session) (n : Nat) : Prop :=
  n < s.created → ¬ s.Entry n → (s.arena n).credit.closed = true

theorem Session.Shut.alike (shut : s.Shut n) (same : Alike s t) : t.Shut n := by
  unfold Session.Shut
  rw [same.created, entry_alike same, same.closed]
  exact shut

private theorem shut_removeAndClose (shut : s.Shut n) (id : UInt32) : (s.removeAndClose id).Shut n := by
  cases found : s.streams id with
  | none => simpa [Session.removeAndClose, found] using shut
  | some stream =>
    intro known gone
    obtain ⟨-, created, -, closed⟩ := removeAndClose_gates found n
    rw [closed]
    split
    · rfl
    · rename_i other
      refine shut (created ▸ known) fun entry => gone ((entry_removeAndClose s id n).mpr ⟨entry, fun same => ?_⟩)
      rw [Session.Entry, same, found] at entry
      exact other (Option.some.inj entry).symm

private theorem shut_clear (shut : s.Shut n) : s.clear.Shut n := by
  intro known _
  simp only [Session.clear]
  split
  · rfl
  · rename_i gone
    exact shut known gone

/-- A removal that does not close the gate must be of another stream. -/
private theorem shut_remove (shut : s.Shut n) {id : UInt32} (spared : s.streams id ≠ some n) :
    (s.remove id).Shut n := by
  intro known gone
  rw [arena_remove]
  rw [remove_created] at known
  refine shut known fun entry => gone ((entry_remove s id n).mpr ⟨entry, fun same => ?_⟩)
  rw [Session.Entry, same] at entry
  exact spared entry

private theorem shut_insert (shut : s.Shut n) {id : UInt32} (spared : s.streams id ≠ some n) :
    (s.insert id).Shut n := by
  intro known gone
  obtain known | rfl := Nat.lt_succ_iff_lt_or_eq.mp known
  · rw [arena_insert s id known]
    refine shut known fun entry => gone ((entry_insert known id).mpr ⟨entry, fun same => ?_⟩)
    rw [Session.Entry, same] at entry
    exact spared entry
  · exact absurd (by simp [Session.Entry, Session.insert]) gone

private theorem shut_step (shut : u.session.Shut n) (leaves : u.Leaves n act)
    (stepped : u.step act = some next) : next.session.Shut n := by
  cases act with
  | link act =>
    obtain ⟨session, did, rfl⟩ := Option.map_eq_some_iff.mp stepped
    obtain ⟨same, -⟩ | ⟨id, -, same⟩ | ⟨-, same⟩ | ⟨id, rfl, reading, same⟩ := step_map did
    · exact shut.alike same
    · exact (shut_removeAndClose shut id).alike same
    · exact (shut_clear shut).alike same
    · refine (shut_insert shut (leaves id ?_)).alike same
      simp [Users.detaches, Session.detaches, reading]
  | task name act =>
    obtain ⟨⟨session, task⟩, did, rfl⟩ := Option.map_eq_some_iff.mp stepped
    obtain ⟨same, -⟩ | ⟨k, sent, -, same⟩ | ⟨id, rfl, holding, same⟩ | ⟨k, rfl, giving, same⟩ |
      ⟨k, rfl, same⟩ := taskStep_map did
    · exact shut.alike same
    · exact (shut_removeAndClose shut _).alike same
    · refine (shut_insert shut (leaves id ?_)).alike same
      simp [Users.detaches, Session.taskDetaches, holding]
    · refine (shut_remove shut (leaves _ ?_)).alike same
      simp [Users.detaches, Session.taskDetaches, giving]
    · refine (shut_remove shut (leaves _ ?_)).alike same
      simp [Users.detaches, Session.taskDetaches]

/-- No stream outlives its link, in every run in which nothing gets past the
clearing of the map: no OPEN goes out for an entry, and no peer's stream is
admitted, once a teardown has cleared it. When both link tasks have ended and no
open is under way, the map is empty and no inbox can get another chunk; and the
gate of every stream that was not detached behind it is closed. -/
theorem no_stream_outlives_its_link (maxStreams : Nat) (onOpen : Bool) (actions : List UsersAct)
    {u : Users} (ran : run Users.step { session := .start maxStreams onOpen } actions = some u)
    (barred : Meets Users.step Users.Barred { session := .start maxStreams onOpen } actions)
    (finished : u.Over) :
    (∀ id, u.session.streams id = none) ∧ (∀ n, ¬ u.session.Feeds n) ∧
    ∀ n < u.session.created,
      Meets Users.step (Users.Leaves n) { session := .start maxStreams onOpen } actions →
        (u.session.arena n).credit.closed = true := by
  obtain ⟨ended, -, rest⟩ := finished
  have cleared : u.Cleared := by
    refine run_preserves_where Users.Cleared
      (fun _ _ _ cleared barred stepped => cleared.step barred stepped) ?_ barred ran
    refine ⟨⟨?_, ?_⟩, fun _ n entry => ?_⟩
    · intro id n found
      cases found
    · intro id n found
      cases found
    · cases entry
  have nobody (n : Nat) : ¬ u.session.Entry n := by
    intro entry
    obtain ⟨name, waiting⟩ := cleared.awaited (.inr (.inl ended)) n entry
    have idle := rest name
    obtain announcing | giving := waiting
    · rw [announcing] at idle
      cases idle
    · rw [giving] at idle
      cases idle
  refine ⟨fun id => ?_, fun n feeds => ?_, fun n known leaves => ?_⟩
  · rw [Option.eq_none_iff_forall_ne_some]
    intro n found
    obtain ⟨-, named⟩ := cleared.valid.known found
    exact nobody n (named ▸ found : u.session.streams (u.session.arena n).id = some n)
  · obtain entry | held := feeds
    · exact nobody n entry
    · rw [ended] at held
      cases held
  · have shut : u.session.Shut n :=
      run_preserves_where (fun u => u.session.Shut n)
        (fun _ _ _ shut leaves stepped => shut_step shut leaves stepped)
        (fun known => absurd known (Nat.not_lt_zero n)) leaves ran
    exact shut known (nobody n)

/-- Only the first task does anything. -/
private def Alone : UsersAct → Prop
  | .task name _ => name = 0
  | .link _ => True

private instance : (act : UsersAct) → Decidable (Alone act)
  | .task name _ => inferInstanceAs (Decidable (name = 0))
  | .link _ => isTrue trivial

private theorem others_idle {actions : List UsersAct} (alone : ∀ act ∈ actions, Alone act)
    (ran : run Users.step { session := s } actions = some u) {name : Nat} (other : name ≠ 0) :
    u.tasks name = .idle := by
  have met : Meets Users.step (fun _ act => Alone act) { session := s } actions :=
    meets_of_mem fun act member _ => alone act member
  refine run_preserves_where (fun u => u.tasks name = .idle) ?_ rfl met ran
  intro u act next idle alone stepped
  cases act with
  | link act =>
    obtain ⟨session, -, rfl⟩ := Option.map_eq_some_iff.mp stepped
    exact idle
  | task mover act =>
    obtain ⟨⟨session, task⟩, -, rfl⟩ := Option.map_eq_some_iff.mp stepped
    obtain rfl : mover = 0 := alone
    dsimp only
    rw [Function.update_of_ne other]
    exact idle

private theorem over_alone {actions : List UsersAct} (alone : ∀ act ∈ actions, Alone act)
    (ran : run Users.step { session := s } actions = some u) (ended : u.session.reader = .ended)
    (dead : u.session.out.isOpen = false) (free : (u.tasks 0).opens = false) : u.Over := by
  refine ⟨ended, dead, fun name => ?_⟩
  by_cases first : name = 0
  · rw [first]
    exact free
  · rw [others_idle alone ran first]
    rfl

/-- The bridge falls silent, and a client opens a stream between the clearing of
the map and the abort of the writer. -/
private def lateOpen : List UsersAct :=
  [.link .lapse, .link .advance, .task 0 .tryOpen, .task 0 .proceed, .task 0 .proceed,
    .task 0 .proceed, .task 0 .proceed, .link .advance, .link .writerEnds]

/-- The same open, done before the bridge falls silent. -/
private def earlyOpen : List UsersAct :=
  [.task 0 .tryOpen, .task 0 .proceed, .task 0 .proceed, .task 0 .proceed, .task 0 .proceed,
    .link .lapse, .link .advance, .link .advance, .link .writerEnds]

/-- A stream inserted after the map was cleared and announced before the outbox
died stays in the map of a dead link: its receiver never sees an end, and its
gate stays open. -/
theorem late_stream_outlives_its_link :
    ∃ actions u, run Users.step { session := .start 1 false } actions = some u ∧ u.Over ∧
      u.session.streams 1 = some 0 ∧ u.session.Feeds 0 ∧
      (u.session.arena 0).credit.closed = false := by
  have reached : ((run Users.step { session := .start 1 false } lateOpen).any fun u =>
      u.session.reader = .ended ∧ u.session.out.isOpen = false ∧ (u.tasks 0).opens = false ∧
      u.session.streams 1 = some 0 ∧ u.session.Feeds 0 ∧
      (u.session.arena 0).credit.closed = false) = true := by decide +kernel
  obtain ⟨u, ran, holds⟩ := run_reaches reached
  obtain ⟨ended, dead, free, entry, feeds, gate⟩ := holds
  exact ⟨lateOpen, u, ran, over_alone (by decide) ran ended dead free, entry, feeds, gate⟩

theorem no_stream_outlives_its_link_early :
    ∃ u, run Users.step { session := .start 1 false } earlyOpen = some u ∧ u.Over ∧
      u.session.created = 1 ∧ u.session.streams 1 = none ∧
      (u.session.arena 0).credit.closed = true := by
  have reached : ((run Users.step { session := .start 1 false } earlyOpen).any fun u =>
      u.session.reader = .ended ∧ u.session.out.isOpen = false ∧ (u.tasks 0).opens = false ∧
      u.session.created = 1) = true := by decide +kernel
  have checked : Meets Users.step Users.Barred { session := .start 1 false } earlyOpen ∧
      Meets Users.step (Users.Leaves 0) { session := .start 1 false } earlyOpen := by decide +kernel
  obtain ⟨u, ran, holds⟩ := run_reaches reached
  obtain ⟨ended, dead, free, created⟩ := holds
  have finished := over_alone (by decide) ran ended dead free
  obtain ⟨empty, -, gates⟩ := no_stream_outlives_its_link 1 false earlyOpen ran checked.1 finished
  exact ⟨u, ran, finished, created, empty 1, gates 0 (by omega) checked.2⟩

end DshProxy.Mux

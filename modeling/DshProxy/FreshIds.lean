import DshProxy.StreamIds

/-! The ids `try_open_stream` draws. The counter starts at one and wraps, and
nothing looks at what it comes to: as long as fewer than `2 ^ 32` ids have been
drawn each is new, and the one after those is the keepalive's. -/
namespace DshProxy.Mux
open Sync Wire Transitions

variable {s t : Session} {u next : Users}

/-- Where the step draws an id, the id is no keepalive and no entry's; where it
inserts a stream, it replaces none. -/
def Users.Fresh (u : Users) : UsersAct → Prop
  | .task name .proceed =>
    match u.tasks name with
    | .opening .allocate => UInt32.ofNat u.session.nextId ≠ 0 ∧
        u.session.streams (.ofNat u.session.nextId) = none
    | .opening (.insert id) => u.session.streams id = none
    | _ => True
  | _ => True

theorem sends_nextId {ok error res : β} (sent : s.sends frame ok error = some (t, res)) :
    t.nextId = s.nextId := by
  obtain ⟨queued, -⟩ | ⟨-, rfl, -⟩ := sends_cases sent
  · exact enqueue_nextId queued
  · rfl

theorem trySends_nextId (tried : s.trySends frame sent = some t) : t.nextId = s.nextId := by
  unfold Session.trySends at tried
  split at tried
  · exact enqueue_nextId tried
  · cases tried
    rfl

private theorem begin_nextId (stepped : s.begin act = some (t, task)) :
    t.nextId = s.nextId ∧ ∀ id, task ≠ .opening (.insert id) := by
  cases act with
  | tryOpen =>
    cases stepped
    exact ⟨rfl, by simp⟩
  | proceed => cases stepped
  | close n =>
    obtain ⟨-, same⟩ := Option.ite_none_right_eq_some.mp stepped
    cases same
    exact ⟨remove_nextId s _, by simp⟩
  | closeStream n sent =>
    obtain ⟨-, got⟩ := Option.ite_none_right_eq_some.mp stepped
    obtain ⟨mid, tried, same⟩ := Option.map_eq_some_iff.mp got
    cases same
    exact ⟨(trySends_nextId tried).trans (removeAndClose_nextId s _), by simp⟩
  | flushCredit n bytes sent =>
    obtain ⟨-, got⟩ := Option.ite_none_right_eq_some.mp stepped
    obtain ⟨mid, tried, same⟩ := Option.map_eq_some_iff.mp got
    cases same
    exact ⟨trySends_nextId tried, by simp⟩
  | recv n =>
    obtain ⟨-, got⟩ := Option.ite_none_right_eq_some.mp stepped
    obtain ⟨⟨chunk, mid⟩, took, same⟩ := Option.map_eq_some_iff.mp got
    obtain ⟨⟨first, inbox⟩, -, taken⟩ := Option.map_eq_some_iff.mp took
    cases taken
    cases same
    exact ⟨rfl, by simp⟩
  | _ =>
    obtain ⟨-, same⟩ := Option.ite_none_right_eq_some.mp stepped
    cases same
    exact ⟨rfl, by simp⟩

/-- A step that leaves the counter alone gives no task an id to insert. -/
private theorem proceed_nextId (stepped : s.proceed task = some (t, task'))
    (other : task ≠ .opening .allocate) :
    t.nextId = s.nextId ∧ ∀ id, task' ≠ .opening (.insert id) := by
  cases task with
  | idle => cases stepped
  | opening stage =>
    obtain ⟨⟨mid, next⟩, opened, same⟩ := Option.map_eq_some_iff.mp stepped
    cases same
    cases stage with
    | reserve =>
      simp only [Session.openStep, Session.reserve] at opened
      split at opened
      · rename_i got
        obtain ⟨-, same⟩ := Option.ite_none_left_eq_some.mp got
        cases same
        cases opened
        exact ⟨rfl, by simp⟩
      · cases opened
        exact ⟨rfl, by simp⟩
    | allocate => exact absurd rfl other
    | insert id =>
      cases opened
      exact ⟨rfl, by simp⟩
    | announce n =>
      refine ⟨sends_nextId opened, ?_⟩
      obtain ⟨-, rfl⟩ | ⟨-, -, rfl⟩ := sends_cases opened <;> simp
    | giveUp n =>
      cases opened
      exact ⟨remove_nextId s _, by simp⟩
    | refused => cases opened
    | opened n => cases opened
  | sending n stage =>
    obtain ⟨⟨mid, next⟩, sent, same⟩ := Option.map_eq_some_iff.mp stepped
    cases same
    exact ⟨(sendStep_created sent).2, by simp⟩
  | granting n bytes =>
    refine ⟨sends_nextId stepped, ?_⟩
    obtain ⟨-, rfl⟩ | ⟨-, -, rfl⟩ := sends_cases stepped <;> simp
  | closing id =>
    refine ⟨sends_nextId stepped, ?_⟩
    obtain ⟨-, rfl⟩ | ⟨-, -, rfl⟩ := sends_cases stepped <;> simp

/-- What a task's step does with ids: nothing, draw one, or give the drawn one
to a new stream. -/
theorem taskStep_draws (stepped : s.taskStep task act = some (t, task')) :
    (t.created = s.created ∧ t.nextId = s.nextId ∧ (∀ n, (t.arena n).id = (s.arena n).id) ∧
      ∀ id, task' ≠ .opening (.insert id)) ∨
    (act = .proceed ∧ task = .opening .allocate ∧ t = { s with nextId := s.nextId + 1 } ∧
      task' = .opening (.insert (.ofNat s.nextId))) ∨
    (∃ id, act = .proceed ∧ task = .opening (.insert id) ∧ t = s.insert id ∧
      task' = .opening (.announce s.created)) := by
  by_cases inserting : act = .proceed ∧ ∃ id, task = .opening (.insert id)
  · obtain ⟨rfl, id, rfl⟩ := inserting
    cases stepped
    exact .inr (.inr ⟨id, rfl, rfl, rfl, rfl⟩)
  by_cases drawing : act = .proceed ∧ task = .opening .allocate
  · obtain ⟨rfl, rfl⟩ := drawing
    cases stepped
    exact .inr (.inl ⟨rfl, rfl, rfl, rfl⟩)
  refine .inl ?_
  have counter : t.nextId = s.nextId ∧ ∀ id, task' ≠ .opening (.insert id) := by
    unfold Session.taskStep at stepped
    split at stepped
    · rename_i going
      exact proceed_nextId stepped fun allocating => drawing ⟨going, allocating⟩
    · exact begin_nextId (Option.ite_none_right_eq_some.mp stepped).2
  have named : t.created = s.created ∧ ∀ n, (t.arena n).id = (s.arena n).id := by
    obtain ⟨same, -⟩ | ⟨n, sent, -, same⟩ | ⟨id, going, holding, -⟩ | ⟨n, -, -, same⟩ |
      ⟨n, -, same⟩ := taskStep_map stepped
    · exact ⟨same.created, same.id⟩
    · exact ⟨same.created.trans (removeAndClose_created s _),
        fun k => (same.id k).trans (id_removeAndClose s _ k)⟩
    · exact absurd ⟨going, id, holding⟩ inserting
    · exact ⟨same.created.trans (remove_created s _), fun k => by rw [same.id k, arena_remove]⟩
    · exact ⟨same.created.trans (remove_created s _), fun k => by rw [same.id k, arena_remove]⟩
  exact ⟨named.1, counter.1, named.2, counter.2⟩

/-- The ids of the link's streams, and of opens on their way, come from below
the counter. -/
structure Users.Ids (u : Users) : Prop where
  valid : Valid u.session
  reader : ∀ id, u.session.reader ≠ .accepting id
  counts : 0 < u.session.nextId
  drawn : ∀ n < u.session.created, (u.session.arena n).id.toNat < u.session.nextId
  held : ∀ name id, u.tasks name = .opening (.insert id) →
    id.toNat < u.session.nextId ∧ ∀ n < u.session.created, (u.session.arena n).id ≠ id
  heldOnce : ∀ name other id, u.tasks name = .opening (.insert id) →
    u.tasks other = .opening (.insert id) → name = other

theorem Users.Ids.start (maxStreams : Nat) (onOpen : Bool) :
    ({ session := .start maxStreams onOpen } : Users).Ids := by
  refine ⟨⟨?_, ?_⟩, ?_, Nat.one_pos, ?_, ?_, ?_⟩
  · intro id n found
    cases found
  · intro id n found
    cases found
  · intro id reading
    cases reading
  · intro n known
    exact absurd known (Nat.not_lt_zero n)
  · intro name id holding
    cases holding
  · intro name other id holding
    cases holding

private theorem users_ids_link (ids : u.Ids) (stepped : u.session.step act = some t) (unopened : t.Unopened) :
    ({ u with session := t } : Users).Ids := by
  have created := step_creates stepped ids.reader
  have counter := step_nextId stepped
  have named {n : Nat} (known : n < t.created) : (t.arena n).id = (u.session.arena n).id :=
    (step_named stepped (created ▸ known)).1
  refine ⟨valid_step ids.valid stepped, fun id admits => ?_, ?_, fun n known => ?_,
    fun name id holding => ?_, ids.heldOnce⟩
  · obtain before | ⟨-, frame, -, member, kind⟩ := step_admits stepped admits
    · exact ids.reader id before
    · exact unopened frame member kind
  · dsimp only
    rw [counter]
    exact ids.counts
  · dsimp only at known ⊢
    rw [named known, counter]
    exact ids.drawn n (created ▸ known)
  · obtain ⟨below, fresh⟩ := ids.held name id holding
    refine ⟨?_, fun n known => ?_⟩
    · dsimp only
      rw [counter]
      exact below
    · dsimp only at known ⊢
      rw [named known]
      exact fresh n (created ▸ known)

/-- Tasks after a step of one of them that gave it no id to insert. -/
private theorem kept_holding {name other : Nat} {id : UInt32} (nothing : ∀ id, task ≠ .opening (.insert id))
    (holding : Function.update u.tasks name task other = .opening (.insert id)) :
    u.tasks other = .opening (.insert id) := by
  by_cases same : other = name
  · subst same
    rw [Function.update_self] at holding
    exact absurd holding (nothing id)
  · rwa [Function.update_of_ne same] at holding

private theorem users_ids_draws (ids : u.Ids) (low : u.session.nextId < 2 ^ 32) :
    ({ session := { u.session with nextId := u.session.nextId + 1 }
       tasks := Function.update u.tasks name (.opening (.insert (.ofNat u.session.nextId))) } :
      Users).Ids := by
  have value : (UInt32.ofNat u.session.nextId).toNat = u.session.nextId :=
    UInt32.toNat_ofNat_of_lt (by simpa using low)
  -- An id that is held, or is a stream's, was drawn before.
  have older {other : Nat} {id : UInt32} (held : u.tasks other = .opening (.insert id)) :
      id ≠ .ofNat u.session.nextId := by
    rintro rfl
    have below := (ids.held other _ held).1
    rw [value] at below
    exact Nat.lt_irrefl _ below
  refine ⟨⟨ids.valid.known, ids.valid.gate⟩, ids.reader, Nat.succ_pos _, fun n known => ?_,
    fun other id held => ?_, fun one two id first second => ?_⟩
  · exact Nat.lt_succ_of_lt (ids.drawn n known)
  · by_cases same : other = name
    · subst same
      simp only [Function.update_self, Task.opening.injEq, Opening.insert.injEq] at held
      subst held
      rw [value]
      refine ⟨Nat.lt_succ_self _, fun n known same => ?_⟩
      have below := ids.drawn n known
      rw [show (u.session.arena n).id = _ from same, value] at below
      exact Nat.lt_irrefl _ below
    · simp only [Function.update_of_ne same] at held
      obtain ⟨below, fresh⟩ := ids.held other id held
      exact ⟨Nat.lt_succ_of_lt below, fresh⟩
  · by_cases left : one = name <;> by_cases right : two = name
    · rw [left, right]
    · subst left
      simp only [Function.update_self, Task.opening.injEq, Opening.insert.injEq] at first
      simp only [Function.update_of_ne right] at second
      exact absurd first.symm (older second)
    · subst right
      simp only [Function.update_self, Task.opening.injEq, Opening.insert.injEq] at second
      simp only [Function.update_of_ne left] at first
      exact absurd second.symm (older first)
    · simp only [Function.update_of_ne left] at first
      simp only [Function.update_of_ne right] at second
      exact ids.heldOnce one two id first second

private theorem users_ids_names (ids : u.Ids) {id : UInt32} (holding : u.tasks name = .opening (.insert id)) :
    ({ session := u.session.insert id
       tasks := Function.update u.tasks name (.opening (.announce u.session.created)) } :
      Users).Ids := by
  obtain ⟨below, fresh⟩ := ids.held name id holding
  have was {other : Nat} {id : UInt32}
      (held : Function.update u.tasks name (.opening (.announce u.session.created)) other =
        .opening (.insert id)) : u.tasks other = .opening (.insert id) :=
    kept_holding (by simp) held
  have away {other : Nat} {id' : UInt32}
      (held : Function.update u.tasks name (.opening (.announce u.session.created)) other =
        .opening (.insert id')) : id' ≠ id := by
    rintro rfl
    obtain rfl := ids.heldOnce other name id' (was held) holding
    simp at held
  refine ⟨valid_insert ids.valid id, ids.reader, ids.counts, fun n known => ?_,
    fun other id' held => ?_, fun one two id' first second =>
      ids.heldOnce one two id' (was first) (was second)⟩
  · obtain older | rfl := Nat.lt_succ_iff_lt_or_eq.mp known
    · dsimp only
      rw [arena_insert _ id older]
      exact ids.drawn n older
    · simpa [Session.insert] using below
  · obtain ⟨below', fresh'⟩ := ids.held other id' (was held)
    refine ⟨below', fun n known => ?_⟩
    obtain older | rfl := Nat.lt_succ_iff_lt_or_eq.mp known
    · dsimp only
      rw [arena_insert _ id older]
      exact fresh' n older
    · simpa [Session.insert] using (away held).symm

/-- A step before the counter comes round keeps ids below it. -/
theorem Users.Ids.step (ids : u.Ids) (stepped : u.step act = some next)
    (unopened : next.session.Unopened) (low : next.session.nextId ≤ 2 ^ 32) : next.Ids := by
  have valid := users_valid ids.valid stepped
  cases act with
  | link act =>
    obtain ⟨session, did, rfl⟩ := Option.map_eq_some_iff.mp stepped
    exact users_ids_link ids did unopened
  | task name act =>
    obtain ⟨⟨session, task⟩, did, rfl⟩ := Option.map_eq_some_iff.mp stepped
    obtain ⟨created, counter, named, nothing⟩ | ⟨rfl, drawing, rfl, rfl⟩ | ⟨id, rfl, holding, rfl, rfl⟩ :=
      taskStep_draws did
    · refine ⟨valid, fun id admits => ?_, ?_, fun n known => ?_, fun other id held => ?_,
        fun one two id first second => ids.heldOnce one two id (kept_holding nothing first)
          (kept_holding nothing second)⟩
      · rw [show session.reader = _ from (quiet_taskStep did).reader] at admits
        exact ids.reader id admits
      · dsimp only
        rw [counter]
        exact ids.counts
      · dsimp only at known ⊢
        rw [named, counter]
        exact ids.drawn n (created ▸ known)
      · obtain ⟨below, fresh⟩ := ids.held other id (kept_holding nothing held)
        dsimp only
        rw [counter]
        refine ⟨below, fun n known => ?_⟩
        rw [named]
        exact fresh n (created ▸ known)
    · exact users_ids_draws ids low
    · exact users_ids_names ids holding

/-- A step reads no frame back and gives no id back. -/
theorem users_grow (stepped : u.step act = some next) :
    u.session.log <+: next.session.log ∧ u.session.nextId ≤ next.session.nextId := by
  cases act with
  | link act =>
    obtain ⟨session, did, rfl⟩ := Option.map_eq_some_iff.mp stepped
    refine ⟨?_, Nat.le_of_eq (step_nextId did).symm⟩
    obtain same | ⟨-, frame, -, -, -, -, more⟩ := step_log did
    · exact same ▸ List.prefix_refl _
    · exact more ▸ List.prefix_append _ _
  | task name act =>
    obtain ⟨⟨session, task⟩, did, rfl⟩ := Option.map_eq_some_iff.mp stepped
    refine ⟨(quiet_taskStep did).log ▸ List.prefix_refl _, ?_⟩
    obtain ⟨-, counter, -, -⟩ | ⟨-, -, rfl, -⟩ | ⟨id, -, -, rfl, -⟩ := taskStep_draws did
    · exact Nat.le_of_eq counter.symm
    · exact Nat.le_succ _
    · exact Nat.le_refl _

theorem users_run_grows {final : Users} (ran : run Users.step u actions = some final) :
    u.session.log <+: final.session.log ∧ u.session.nextId ≤ final.session.nextId := by
  refine run_preserves
    (fun v => u.session.log <+: v.session.log ∧ u.session.nextId ≤ v.session.nextId) ?_
    ⟨List.prefix_refl _, Nat.le_refl _⟩ ran
  intro v act next ⟨log, counter⟩ stepped
  obtain ⟨log', counter'⟩ := users_grow stepped
  exact ⟨log.trans log', Nat.le_trans counter counter'⟩

/-- Below the counter there is nothing left to collide with. -/
theorem Users.Ids.fresh (ids : u.Ids) (stepped : u.step act = some next)
    (low : next.session.nextId ≤ 2 ^ 32) : u.Fresh act := by
  have free {id : UInt32} (fresh : ∀ n < u.session.created, (u.session.arena n).id ≠ id) :
      u.session.streams id = none := by
    rw [Option.eq_none_iff_forall_ne_some]
    intro n found
    obtain ⟨known, named⟩ := ids.valid.known found
    exact fresh n known named
  unfold Users.Fresh
  split
  · rename_i name
    split
    · rename_i drawing
      obtain ⟨⟨session, task⟩, did, rfl⟩ := Option.map_eq_some_iff.mp stepped
      rw [drawing] at did
      cases did
      have below : u.session.nextId < 2 ^ 32 := low
      have value : (UInt32.ofNat u.session.nextId).toNat = u.session.nextId :=
        UInt32.toNat_ofNat_of_lt (by simpa using below)
      refine ⟨fun zero => ?_, free fun n known same => ?_⟩
      · have counts := ids.counts
        rw [← value, zero] at counts
        exact Nat.lt_irrefl _ counts
      · have below := ids.drawn n known
        rw [same, value] at below
        exact Nat.lt_irrefl _ below
    · rename_i id holding
      exact free (ids.held name id holding).2
    · trivial
  · trivial

private theorem fresh_of_low {final : Users} (ids : u.Ids)
    (ran : run Users.step u actions = some final) (unopened : final.session.Unopened)
    (low : final.session.nextId ≤ 2 ^ 32) : Meets Users.step Users.Fresh u actions := by
  induction actions generalizing u with
  | nil => trivial
  | cons act rest ih =>
    obtain ⟨mid, stepped, later⟩ := run_cons.mp ran
    obtain ⟨log, counter⟩ := users_run_grows later
    have low' : mid.session.nextId ≤ 2 ^ 32 := Nat.le_trans counter low
    refine ⟨ids.fresh stepped low', fun other stepped' => ?_⟩
    obtain rfl : mid = other := Option.some.inj (stepped.symm.trans stepped')
    exact ih (ids.step stepped (fun frame member => unopened frame (log.subset member)) low') later

/-- Drawing the keepalive's id is how every link that lives long enough fails. -/
private theorem low_of_fresh {final : Users} (low : u.session.nextId ≤ 2 ^ 32)
    (fresh : Meets Users.step Users.Fresh u actions) (ran : run Users.step u actions = some final) :
    final.session.nextId ≤ 2 ^ 32 := by
  refine run_preserves_where (fun v => v.session.nextId ≤ 2 ^ 32) ?_ low fresh ran
  intro v act next low fresh stepped
  cases act with
  | link act =>
    obtain ⟨session, did, rfl⟩ := Option.map_eq_some_iff.mp stepped
    rw [show session.nextId = _ from step_nextId did]
    exact low
  | task name act =>
    obtain ⟨⟨session, task⟩, did, rfl⟩ := Option.map_eq_some_iff.mp stepped
    obtain ⟨-, counter, -, -⟩ | ⟨rfl, drawing, rfl, -⟩ | ⟨id, -, -, rfl, -⟩ := taskStep_draws did
    · dsimp only
      rw [counter]
      exact low
    · simp only [Users.Fresh, drawing] at fresh
      refine Nat.succ_le_of_lt (Nat.lt_of_le_of_ne low fun last => fresh.1 ?_)
      rw [last]
      rfl
    · exact low

/-- On a link whose peer opens nothing, every id drawn is new and none is the
keepalive's, and no insert replaces a stream, exactly as long as fewer than
`2 ^ 32` ids are drawn. -/
theorem ids_are_fresh_until_wrap (maxStreams : Nat) (onOpen : Bool) (actions : List UsersAct)
    {final : Users}
    (ran : run Users.step { session := .start maxStreams onOpen } actions = some final)
    (unopened : final.session.Unopened) :
    Meets Users.step Users.Fresh { session := .start maxStreams onOpen } actions ↔
      final.session.nextId ≤ 2 ^ 32 := by
  constructor
  · intro fresh
    exact low_of_fresh (Nat.one_le_two_pow) fresh ran
  · exact fresh_of_low (.start maxStreams onOpen) ran unopened

/-- A stream is opened and closed, and the writer catches up. -/
private def openAndClose (stream : Nat) : List UsersAct :=
  [.task 0 .tryOpen, .task 0 .proceed, .task 0 .proceed, .task 0 .proceed, .task 0 .proceed,
    .task 0 (.close stream), .task 0 .proceed, .link (.takeBatch 2), .link .feed, .link .feed,
    .link .release]

/-- A link for one stream at a time that has carried `count` of them. -/
private structure Resting (count : Nat) (u : Users) : Prop where
  free : u.tasks 0 = .idle
  live : u.session.out.isOpen = true
  drained : u.session.out.taken = u.session.out.accepted.length
  fed : u.session.fed = u.session.out.taken
  empty : u.session.streams = fun _ => none
  budget : u.session.budget = 1
  limbo : u.session.limbo = 0
  created : u.session.created = count
  counter : u.session.nextId = count + 1
  silent : u.session.log = []

private theorem openAndClose_rests (resting : Resting count u) :
    ∃ next, run Users.step u (openAndClose count) = some next ∧ Resting (count + 1) next := by
  obtain ⟨⟨⟨accepted, taken, isOpen, within⟩, fed, streams, arena, created, nextId, budget, limbo,
    reader, log, onOpen, shutdowns, aborted⟩, tasks⟩ := u
  obtain ⟨free, live, drained, fed, empty, budget, limbo, created, counter, silent⟩ := resting
  dsimp only at *
  subst live drained fed empty budget limbo created counter silent
  simp [openAndClose, run, Users.step, Session.taskStep, Task.free, free, Session.begin,
    Session.proceed, Session.openStep, Session.reserve, Session.insert, Session.sends,
    Session.enqueue, Channel.len, outboxFrames, Session.remove, Channel.push, Session.step,
    writeBatch, Channel.advance]
  constructor <;> simp

private theorem carries_any (count : Nat) :
    ∃ actions u, run Users.step { session := .start 1 false } actions = some u ∧
      Resting count u := by
  induction count with
  | zero => exact ⟨[], _, rfl, by constructor <;> rfl⟩
  | succ count ih =>
    obtain ⟨actions, u, ran, resting⟩ := ih
    obtain ⟨next, cycled, after⟩ := openAndClose_rests resting
    exact ⟨actions ++ openAndClose count, next, run_append.mpr ⟨u, ran, cycled⟩, after⟩

/-- One stream after the other, each closed before the next is opened: the open
after `2 ^ 32 - 1` of them draws the id of the keepalive. -/
theorem counter_comes_round :
    ∃ actions final, run Users.step { session := .start 1 false } actions = some final ∧
      final.session.Unopened ∧
      ¬ Meets Users.step Users.Fresh { session := .start 1 false } actions := by
  obtain ⟨actions, u, ran, resting⟩ := carries_any (2 ^ 32)
  refine ⟨actions, u, ran, fun frame member => ?_, fun fresh => ?_⟩
  · rw [resting.silent] at member
    cases member
  · have low := low_of_fresh Nat.one_le_two_pow fresh ran
    rw [resting.counter] at low
    exact Nat.not_succ_le_self _ low

/-- Two streams in turn are far from the wrap. -/
theorem ids_are_fresh_until_wrap_twice :
    Meets Users.step Users.Fresh { session := .start 1 false } (openAndClose 0 ++ openAndClose 1) := by
  have reached : ((run Users.step { session := .start 1 false } (openAndClose 0 ++ openAndClose 1)).any
      fun u => u.session.log = [] ∧ u.session.nextId = 3) = true := by decide +kernel
  obtain ⟨u, ran, ends⟩ := run_reaches reached
  obtain ⟨silent, counter⟩ := ends
  have unopened : u.session.Unopened := by
    intro frame member
    rw [silent] at member
    cases member
  refine (ids_are_fresh_until_wrap 1 false _ ran unopened).mpr ?_
  rw [counter]
  exact Nat.le_of_ble_eq_true rfl

end DshProxy.Mux

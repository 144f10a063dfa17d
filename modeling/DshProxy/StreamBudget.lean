import DshProxy.MuxInbox
import Mathlib.Data.Set.Card

/-! The stream ceiling. A permit of a link's budget is free, held by an open on
its way to the map, owned by an entry of the map, or owned by an entry that has
left the map and is about to be dropped; no step makes or loses one. -/
namespace DshProxy.Mux
open Sync Wire Transitions

/-- A permit is held and no entry owns it yet: between the reservation and the
insertion of `try_open_stream`. -/
def Task.reserves : Task → Bool
  | .opening .allocate | .opening (.insert _) => true
  | _ => false

/-- The same for the reader, on a peer's OPEN. -/
def Reader.reserves : Reader → Bool
  | .accepting _ => true
  | _ => false

/-- Permits held by opens between reservation and insertion. -/
noncomputable def Users.reserved (u : Users) : Nat :=
  { name | (u.tasks name).reserves = true }.ncard + u.session.reader.reserves.toNat

/-- Permits of the session that no task holds. -/
def Session.permits (s : Session) : Nat :=
  s.budget + s.count + s.limbo + s.reader.reserves.toNat

private theorem countP_range_except {p : Nat → Bool} (known : n < m) (holds : p n = true) :
    (List.range m).countP (fun k => p k && k != n) + 1 = (List.range m).countP p := by
  induction m with
  | zero => exact absurd known (Nat.not_lt_zero n)
  | succ m ih =>
    simp only [List.range_succ, List.countP_append, List.countP_singleton]
    obtain older | rfl := Nat.lt_succ_iff_lt_or_eq.mp known
    · have other : (m != n) = true := by simpa using Nat.ne_of_gt older
      rw [other, Bool.and_true, ← ih older]
      omega
    · have below : (List.range n).countP (fun k => p k && k != n) = (List.range n).countP p := by
        refine List.countP_congr fun k member => ?_
        have other : k ≠ n := Nat.ne_of_lt (List.mem_range.mp member)
        simp [other]
      simp [below, holds]

variable {s t : Session} {id : UInt32}

/-- The count looks at the map and the ids of the streams only. -/
theorem count_congr (streams : t.streams = s.streams) (created : t.created = s.created)
    (ids : ∀ n, (t.arena n).id = (s.arena n).id) : t.count = s.count := by
  unfold Session.count
  simp only [created, streams, ids]

/-- Entries but one. -/
private theorem count_except (valid : Valid s) (found : s.streams id = some n) :
    (List.range s.created).countP (fun k =>
      decide (Function.update s.streams id none (s.arena k).id = some k)) + 1 = s.count := by
  obtain ⟨known, named⟩ := valid.known found
  have entry : decide (s.streams (s.arena n).id = some n) = true := by simpa [named] using found
  have others : ∀ k ∈ List.range s.created,
      decide (Function.update s.streams id none (s.arena k).id = some k) = true ↔
        (decide (s.streams (s.arena k).id = some k) && k != n) = true := by
    intro k _
    by_cases same : (s.arena k).id = id
    · rw [same, found]
      by_cases here : n = k <;> simp [here]
    · have other : k ≠ n := by
        rintro rfl
        exact same named
      simp [same, other]
  rw [List.countP_congr others]
  exact countP_range_except known entry

theorem count_remove (valid : Valid s) (id : UInt32) :
    (s.remove id).count + (s.remove id).limbo = s.count + s.limbo := by
  unfold Session.remove
  split
  · rfl
  · rename_i n found
    rw [← count_except valid found]
    unfold Session.count
    dsimp only
    omega

theorem count_removeAndClose (valid : Valid s) (id : UInt32) :
    (s.removeAndClose id).count + (s.removeAndClose id).limbo = s.count + s.limbo := by
  unfold Session.removeAndClose
  split
  · rfl
  · rename_i n found
    rw [← count_remove valid id]
    exact congrArg (· + (s.remove id).limbo) (count_congr rfl rfl (modify_kept _ Stream.id rfl))

/-- A new entry takes one permit, and one that was under its id gives up its
own. -/
theorem count_insert (valid : Valid s) (id : UInt32) :
    (s.insert id).count + (s.insert id).limbo = s.count + s.limbo + 1 := by
  have last : decide ((s.insert id).streams ((s.insert id).arena s.created).id = some s.created) =
      true := by simp [Session.insert]
  -- An older stream is in the map if it was and does not have the new id.
  have older : ∀ k ∈ List.range s.created,
      decide ((s.insert id).streams ((s.insert id).arena k).id = some k) = true ↔
        decide (Function.update s.streams id none (s.arena k).id = some k) = true := by
    intro k member
    have other : k ≠ s.created := Nat.ne_of_lt (List.mem_range.mp member)
    by_cases same : (s.arena k).id = id <;> simp [Session.insert, other, Ne.symm other, same]
  have total : (s.insert id).count = (List.range s.created).countP (fun k =>
      decide (Function.update s.streams id none (s.arena k).id = some k)) + 1 := by
    rw [← List.countP_congr older]
    show (List.range (s.created + 1)).countP _ = _
    rw [List.range_succ, List.countP_append, List.countP_singleton, if_pos last]
  cases found : s.streams id with
  | none =>
    have unchanged : Function.update s.streams id none = s.streams := by
      rw [← found, Function.update_eq_self]
    rw [total, unchanged]
    simp only [Session.insert, found, Session.count]
    simp
    omega
  | some n =>
    rw [total, count_except valid found]
    simp only [Session.insert, found]
    simp
    omega

theorem count_clear (s : Session) : s.clear.count = 0 := by
  simp [Session.count, Session.clear]

@[simp] theorem remove_budget (s : Session) (id : UInt32) : (s.remove id).budget = s.budget := by
  unfold Session.remove
  split <;> rfl

@[simp] theorem removeAndClose_budget (s : Session) (id : UInt32) :
    (s.removeAndClose id).budget = s.budget := by
  unfold Session.removeAndClose
  split
  · rfl
  · exact remove_budget s id

theorem permits_remove (valid : Valid s) (id : UInt32) : (s.remove id).permits = s.permits := by
  have owned := count_remove valid id
  simp only [Session.permits, remove_budget, (quiet_remove s id).reader]
  omega

theorem permits_removeAndClose (valid : Valid s) (id : UInt32) :
    (s.removeAndClose id).permits = s.permits := by
  have owned := count_removeAndClose valid id
  simp only [Session.permits, removeAndClose_budget, (quiet_removeAndClose s id).reader]
  omega

theorem permits_insert (valid : Valid s) (id : UInt32) :
    (s.insert id).permits = s.permits + 1 := by
  have owned := count_insert valid id
  simp only [Session.permits, show (s.insert id).budget = s.budget from rfl,
    show (s.insert id).reader = s.reader from rfl]
  omega

theorem permits_clear (s : Session) : s.clear.permits = s.permits := by
  simp only [Session.permits, count_clear]
  simp only [Session.clear]
  omega

/-- What a step without business with permits leaves as it is. -/
structure Owes (s t : Session) : Prop where
  budget : t.budget = s.budget
  limbo : t.limbo = s.limbo
  streams : t.streams = s.streams
  created : t.created = s.created
  ids : ∀ n, (t.arena n).id = (s.arena n).id

theorem Owes.permits (owes : Owes s t) (reader : t.reader.reserves = s.reader.reserves) :
    t.permits = s.permits := by
  simp only [Session.permits, owes.budget, owes.limbo, reader,
    count_congr owes.streams owes.created owes.ids]

theorem owes_modify (s : Session) (stream : Nat) (change : Stream → Stream)
    (id : (change (s.arena stream)).id = (s.arena stream).id) : Owes s (s.modify stream change) := by
  exact ⟨rfl, rfl, rfl, rfl, modify_kept s Stream.id id⟩

theorem owes_enqueue (queued : s.enqueue frame = some t) : Owes s t := by
  obtain ⟨rfl, -, -⟩ := enqueue_eq queued
  exact ⟨rfl, rfl, rfl, rfl, fun _ => rfl⟩

theorem Owes.same (s : Session) : Owes s s := ⟨rfl, rfl, rfl, rfl, fun _ => rfl⟩

private theorem replies_reserves {r : Reader} (replies : r.replies = some frame) :
    r.reserves = false := by
  cases r <;> first
    | rfl
    | cases replies

/-- The reader goes on to where it holds as many permits as before. -/
private theorem permits_goes {r : Reader} (same : r.reserves = s.reader.reserves) :
    ({ s with reader := r } : Session).permits = s.permits :=
  Owes.permits ⟨rfl, rfl, rfl, rfl, fun _ => rfl⟩ same

private theorem heard_permits (valid : Valid s) (idle : s.reader = .idle) (did : Heard s frame t) :
    t.permits = s.permits := by
  have logged : ({ s with log := s.log ++ [frame] } : Session).permits = s.permits := rfl
  cases did with
  | opens _ _ free =>
    simp only [Session.permits, idle, Reader.reserves, Session.count, Bool.toNat_true,
      Bool.toNat_false]
    omega
  | closes =>
    have kept : Valid ({ s with log := s.log ++ [frame] } : Session) := ⟨valid.known, valid.gate⟩
    exact (permits_removeAndClose kept frame.id).trans logged
  | grants aim => exact (owes_modify _ aim _ rfl).permits rfl
  | ignores => exact logged
  | _ => exact Owes.permits ⟨rfl, rfl, rfl, rfl, fun _ => rfl⟩ (by rw [idle]; rfl)

/-- No link step makes or loses a permit. -/
theorem step_permits (valid : Valid s) (stepped : s.step act = some t) : t.permits = s.permits := by
  have admitted {id : UInt32} (reading : s.reader = .accepting id) :
      ({ s.insert id with reader := .idle } : Session).permits = s.permits := by
    have more := permits_insert valid id
    simp only [Session.permits, show (s.insert id).reader = s.reader from rfl, reading,
      Reader.reserves, Bool.toNat_true, Bool.toNat_false] at more ⊢
    simp only [Session.count] at more ⊢
    omega
  cases step_move stepped with
  | short plain idle => exact permits_goes (by rw [idle]; rfl)
  | heard plain frame idle _ _ did => exact heard_permits valid idle did
  | lapse idle => exact permits_goes (by rw [idle]; rfl)
  | admits id reading => exact admitted reading
  | admitsNobody id reading => exact ((owes_modify _ s.created _ rfl).permits rfl).trans (admitted reading)
  | delivers id stream body reading =>
    have kept := owes_modify s stream
      (fun st => { st with inbox := (s.arena stream).inbox.push body }) rfl
    exact Owes.permits ⟨kept.budget, kept.limbo, kept.streams, kept.created, kept.ids⟩
      (by rw [reading]; rfl)
  | drops id stream body reading => exact permits_goes (by rw [reading]; rfl)
  | overflows id stream body reading => exact permits_goes (by rw [reading]; rfl)
  | evicts id stream reading =>
    refine Eq.trans (permits_goes ?_) (permits_removeAndClose valid id)
    rw [(quiet_removeAndClose s id).reader, reading]
    rfl
  | dies reading => exact Eq.trans (permits_goes (by rw [show s.clear.reader = _ from reading]; rfl)) (permits_clear s)
  | ends reading => exact permits_goes (by rw [reading]; rfl)
  | replies frame reading did =>
    have kept := owes_enqueue did
    refine Owes.permits ⟨kept.budget, kept.limbo, kept.streams, kept.created, kept.ids⟩ ?_
    rw [replies_reserves reading]
    rfl
  | replyFails frame reading => exact permits_goes (by rw [replies_reserves reading]; rfl)
  | readerAborted plain =>
    refine permits_goes ?_
    obtain idle | waiting := plain
    · rw [idle]
      rfl
    · obtain ⟨frame, replies⟩ := Option.isSome_iff_exists.mp waiting
      rw [replies_reserves replies]
      rfl
  | release some =>
    simp only [Session.permits, Session.count]
    omega
  | shutdownClear => exact permits_clear s
  | _ => exact Owes.permits ⟨rfl, rfl, rfl, rfl, fun _ => rfl⟩ rfl

theorem owes_sends {ok error res : β} (sent : s.sends frame ok error = some (t, res)) : Owes s t := by
  obtain ⟨queued, -⟩ | ⟨-, rfl, -⟩ := sends_cases sent
  · exact owes_enqueue queued
  · exact .same t

theorem owes_trySends (tried : s.trySends frame sent = some t) : Owes s t := by
  unfold Session.trySends at tried
  split at tried
  · exact owes_enqueue tried
  · cases tried
    exact .same s

theorem owes_sendStep (stepped : s.sendStep stream stage = some (t, next)) : Owes s t := by
  cases sendStep_move stepped with
  | spends => exact owes_modify s stream _ rfl
  | queues chunk rest queued => exact owes_enqueue queued
  | _ => exact .same s

theorem owes_take (took : s.take stream = some (chunk, t)) : Owes s t := by
  obtain ⟨⟨first, inbox⟩, -, same⟩ := Option.map_eq_some_iff.mp took
  cases same
  exact owes_modify s stream _ rfl

/-- A step that is no business of the reader's and none of the permits'. -/
private theorem owes_quiet (owes : Owes s t) (quiet : Quiet s t) : t.permits = s.permits :=
  owes.permits (by rw [quiet.reader])

private theorem openStep_permits (valid : Valid s) (stepped : s.openStep stage = some (t, next)) :
    t.permits + (Task.opening next).reserves.toNat = s.permits + (Task.opening stage).reserves.toNat := by
  cases stage with
  | reserve =>
    simp only [Session.openStep, Session.reserve] at stepped
    split at stepped
    · rename_i got
      obtain ⟨free, same⟩ := Option.ite_none_left_eq_some.mp got
      cases same
      cases stepped
      simp only [Session.permits, Session.count, Task.reserves, Bool.toNat_true, Bool.toNat_false]
      omega
    · cases stepped
      rfl
  | allocate =>
    cases stepped
    rfl
  | insert id =>
    cases stepped
    exact permits_insert valid id
  | announce n =>
    have kept := owes_quiet (owes_sends stepped) (quiet_sends stepped)
    obtain ⟨-, rfl⟩ | ⟨-, -, rfl⟩ := sends_cases stepped <;> exact kept
  | giveUp n =>
    cases stepped
    have dropped := owes_quiet (owes_modify (s.remove (s.arena n).id) n _ rfl) (quiet_hangUp _ n)
    exact dropped.trans (permits_remove valid _)
  | refused => cases stepped
  | opened n => cases stepped

private theorem begin_permits (valid : Valid s) (stepped : s.begin act = some (t, task)) :
    t.permits = s.permits ∧ task.reserves = false := by
  cases act with
  | tryOpen =>
    cases stepped
    exact ⟨rfl, rfl⟩
  | proceed => cases stepped
  | send n data =>
    obtain ⟨-, same⟩ := Option.ite_none_right_eq_some.mp stepped
    cases same
    exact ⟨rfl, rfl⟩
  | grant n bytes =>
    obtain ⟨-, same⟩ := Option.ite_none_right_eq_some.mp stepped
    cases same
    exact ⟨rfl, rfl⟩
  | close n =>
    obtain ⟨-, same⟩ := Option.ite_none_right_eq_some.mp stepped
    cases same
    exact ⟨permits_remove valid _, rfl⟩
  | closeStream n sent =>
    obtain ⟨-, got⟩ := Option.ite_none_right_eq_some.mp stepped
    obtain ⟨mid, tried, same⟩ := Option.map_eq_some_iff.mp got
    cases same
    have kept := owes_quiet (owes_trySends tried) (quiet_trySends tried)
    exact ⟨kept.trans (permits_removeAndClose valid _), rfl⟩
  | flushCredit n bytes sent =>
    obtain ⟨-, got⟩ := Option.ite_none_right_eq_some.mp stepped
    obtain ⟨mid, tried, same⟩ := Option.map_eq_some_iff.mp got
    cases same
    exact ⟨owes_quiet (owes_trySends tried) (quiet_trySends tried), rfl⟩
  | recv n =>
    obtain ⟨-, got⟩ := Option.ite_none_right_eq_some.mp stepped
    obtain ⟨⟨chunk, mid⟩, took, same⟩ := Option.map_eq_some_iff.mp got
    cases same
    exact ⟨owes_quiet (owes_take took) (quiet_take took), rfl⟩
  | hangUp n =>
    obtain ⟨-, same⟩ := Option.ite_none_right_eq_some.mp stepped
    cases same
    exact ⟨owes_quiet (owes_modify s n _ rfl) (quiet_hangUp s n), rfl⟩

/-- A task's step hands permits over between the session and the task. -/
theorem taskStep_permits (valid : Valid s) (stepped : s.taskStep task act = some (t, task')) :
    t.permits + task'.reserves.toNat = s.permits + task.reserves.toNat := by
  unfold Session.taskStep at stepped
  split at stepped
  · cases task with
    | idle => cases stepped
    | opening stage =>
      obtain ⟨⟨mid, next⟩, opened, same⟩ := Option.map_eq_some_iff.mp stepped
      cases same
      exact openStep_permits valid opened
    | sending n stage =>
      obtain ⟨⟨mid, next⟩, sent, same⟩ := Option.map_eq_some_iff.mp stepped
      cases same
      exact owes_quiet (owes_sendStep sent) (quiet_sendStep sent)
    | granting n bytes =>
      have kept := owes_quiet (owes_sends stepped) (quiet_sends stepped)
      obtain ⟨-, rfl⟩ | ⟨-, -, rfl⟩ := sends_cases stepped <;> exact kept
    | closing id =>
      have kept := owes_quiet (owes_sends stepped) (quiet_sends stepped)
      obtain ⟨-, rfl⟩ | ⟨-, -, rfl⟩ := sends_cases stepped <;> exact kept
  · obtain ⟨free, begun⟩ := Option.ite_none_right_eq_some.mp stepped
    obtain ⟨kept, nothing⟩ := begin_permits valid begun
    have before : task.reserves = false := by
      cases task with
      | opening stage => cases stage <;> first
          | rfl
          | cases free
      | _ => rfl
    rw [kept, nothing, before]

/-- Tasks between reservation and insertion after one of them has moved. -/
private theorem reserving_update (tasks : Nat → Task) (name : Nat) (task : Task)
    (finite : { other | (tasks other).reserves = true }.Finite) :
    { other | (Function.update tasks name task other).reserves = true }.Finite ∧
      { other | (Function.update tasks name task other).reserves = true }.ncard +
          (tasks name).reserves.toNat =
        { other | (tasks other).reserves = true }.ncard + task.reserves.toNat := by
  let reserving := { other | (tasks other).reserves = true }
  have after : { other | (Function.update tasks name task other).reserves = true } =
      if task.reserves then insert name reserving else reserving \ {name} := by
    ext other
    by_cases same : other = name
    · subst same
      cases holds : task.reserves <;> simp [holds]
    · cases holds : task.reserves <;> simp [same, reserving]
  rw [after]
  cases now : task.reserves <;> cases before : (tasks name).reserves
  · have absent : name ∉ reserving := by simp [reserving, before]
    rw [if_neg (by simp), Set.sdiff_singleton_eq_self absent]
    exact ⟨finite, rfl⟩
  · have member : name ∈ reserving := before
    refine ⟨finite.sdiff, ?_⟩
    exact Set.ncard_sdiff_singleton_add_one member finite
  · have absent : name ∉ reserving := by simp [reserving, before]
    exact ⟨finite.insert name, Set.ncard_insert_of_notMem absent finite⟩
  · have member : name ∈ reserving := before
    rw [if_pos rfl, Set.insert_eq_of_mem member]
    exact ⟨finite, rfl⟩

/-- What holds of a session and its users in every state. -/
structure Users.Budgeted (ceiling : Nat) (u : Users) : Prop where
  valid : Valid u.session
  finite : { name | (u.tasks name).reserves = true }.Finite
  exactly : u.session.budget + u.session.count + u.reserved + u.session.limbo = ceiling

theorem Users.Budgeted.step {u next : Users} (budgeted : u.Budgeted ceiling)
    (stepped : u.step act = some next) : next.Budgeted ceiling := by
  have total := budgeted.exactly
  unfold Users.reserved at total
  have valid := users_valid budgeted.valid stepped
  cases act with
  | link act =>
    obtain ⟨session, did, rfl⟩ := Option.map_eq_some_iff.mp stepped
    refine ⟨valid, budgeted.finite, ?_⟩
    have kept := step_permits budgeted.valid did
    unfold Session.permits at kept
    unfold Users.reserved
    dsimp only
    omega
  | task name act =>
    obtain ⟨⟨session, task⟩, did, rfl⟩ := Option.map_eq_some_iff.mp stepped
    obtain ⟨finite, moved⟩ := reserving_update u.tasks name task budgeted.finite
    refine ⟨valid, finite, ?_⟩
    have kept := taskStep_permits budgeted.valid did
    unfold Session.permits at kept
    unfold Users.reserved
    dsimp only
    omega

theorem Users.Budgeted.start (maxStreams : Nat) (onOpen : Bool) :
    ({ session := .start maxStreams onOpen } : Users).Budgeted (max maxStreams 1) := by
  refine ⟨⟨?_, ?_⟩, ?_, ?_⟩
  · intro id n found
    cases found
  · intro id n found
    cases found
  · simp [Task.reserves]
  · simp [Users.reserved, Task.reserves, Reader.reserves, Session.start, Session.count]

/-- An open is refused at its reservation only when no permit is free. -/
private theorem reserve_refused {u next : Users} (phase : u.tasks name = .opening .reserve)
    (stepped : u.step (.task name .proceed) = some next)
    (refused : next.tasks name = .opening .refused) : u.session.budget = 0 := by
  obtain ⟨⟨session, task⟩, did, rfl⟩ := Option.map_eq_some_iff.mp stepped
  simp only [Function.update_self] at refused
  subst refused
  simp only [Session.taskStep, phase, Session.proceed, Session.openStep, Session.reserve] at did
  by_contra free
  simp [free] at did

/-- So is a stream the peer opens. -/
private theorem open_refused (stepped : s.step (.recv plain) = some t)
    (refused : t.reader = .refuse id none) : s.budget = 0 := by
  cases step_move stepped with
  | short => cases refused
  | heard _ frame idle _ _ did =>
    cases did with
    | overBudget _ _ full => exact full
    | closes =>
      rw [(quiet_removeAndClose _ _).reader] at refused
      rw [show s.reader = _ from idle] at refused
      cases refused
    | grants =>
      rw [show s.reader = _ from refused] at idle
      cases idle
    | ignores =>
      rw [show s.reader = _ from refused] at idle
      cases idle
    | _ => cases refused

/-- The ceiling is exact. Whatever opens, frames, closes, overflows, failed opens
and teardowns happen in whatever order, free permits, entries of the map, opens
on their way and entries about to be dropped are always the ceiling together:
the map never holds more entries, and an open is refused, here or to the peer,
only when the whole ceiling is in use. -/
theorem stream_ceiling_is_exact (maxStreams : Nat) (onOpen : Bool) (actions : List UsersAct)
    {u : Users} (ran : run Users.step { session := .start maxStreams onOpen } actions = some u) :
    u.session.budget + u.session.count + u.reserved + u.session.limbo = max maxStreams 1 ∧
    u.session.count ≤ max maxStreams 1 ∧
    (∀ name next, u.tasks name = .opening .reserve → u.step (.task name .proceed) = some next →
      next.tasks name = .opening .refused →
        u.session.count + u.reserved + u.session.limbo = max maxStreams 1) ∧
    (∀ plain id next, u.step (.link (.recv plain)) = some next →
      next.session.reader = .refuse id none →
        u.session.count + u.reserved + u.session.limbo = max maxStreams 1) := by
  have budgeted : u.Budgeted (max maxStreams 1) :=
    run_preserves (Users.Budgeted (max maxStreams 1)) (fun _ _ _ holds stepped => holds.step stepped)
      (.start maxStreams onOpen) ran
  have total := budgeted.exactly
  refine ⟨total, by omega, fun name next phase stepped refused => ?_,
    fun plain id next stepped refused => ?_⟩
  · have empty := reserve_refused phase stepped refused
    omega
  · obtain ⟨session, did, rfl⟩ := Option.map_eq_some_iff.mp stepped
    have empty := open_refused did refused
    omega

/-- One stream is open on a link that allows one, and a second open has begun. -/
private def secondOpen : List UsersAct :=
  [.task 0 .tryOpen, .task 0 .proceed, .task 0 .proceed, .task 0 .proceed, .task 0 .proceed,
    .task 1 .tryOpen]

theorem stream_ceiling_is_exact_second :
    ∃ u, run Users.step { session := .start 1 false } secondOpen = some u ∧ u.session.count = 1 ∧
      u.tasks 1 = .opening .reserve ∧
      u.session.budget + u.session.count + u.reserved + u.session.limbo = 1 := by
  have reached : ((run Users.step { session := .start 1 false } secondOpen).any fun u =>
      u.session.count = 1 ∧ u.tasks 1 = .opening .reserve) = true := by decide +kernel
  obtain ⟨u, ran, ends⟩ := run_reaches reached
  exact ⟨u, ran, ends.1, ends.2, (stream_ceiling_is_exact 1 false secondOpen ran).1⟩

end DshProxy.Mux

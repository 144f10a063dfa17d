import DshProxy.LinkTeardown

/-! The routing table, and what `serve_bridge` does with it. Every bridge link
registers under the key it has proved; a later link with the same key takes over
the entry and tears its predecessor down. Generations overlap: a link may die
before, while or after it displaces another, and it cleans up when it gets to. -/
namespace DshProxy.Mux
open Transitions

/-- The key a bridge has proved to hold. -/
abbrev Key := { key : Bytes // key.length = 32 }

/-- Where `serve_bridge` stands once the link's session has been started. -/
inductive Registration
  | started
  /-- `table.insert` has returned this session; `shutdown` has not begun. -/
  | displacing (previous : Nat)
  /-- Its streams are gone; its two tasks are about to be aborted. -/
  | aborting (previous : Nat)
  /-- In `done.await`. -/
  | serving
  /-- `done` has resolved; `table.remove_if` comes next. -/
  | leaving
  | down
  deriving DecidableEq, Repr

/-- One bridge link: its key, its session with everyone who uses it, and the task
that serves it. -/
structure Link where
  key : Key
  users : Users
  stage : Registration := .started

/-- The table and every link there has been, known by its number. `insertions` is
every `table.insert` so far. -/
structure Registry where
  table : Key → Option Nat := fun _ => none
  links : Nat → Option Link := fun _ => none
  adopted : Nat := 0
  insertions : List (Key × Nat) := []

inductive RegistryAct
  /-- A bridge has proved its key; `MuxSession::start`. -/
  | adopt (key : Key) (maxStreams : Nat)
  | insert (link : Nat)
  /-- The next piece of `previous.shutdown()`. -/
  | shutdown (link : Nat)
  /-- `done.await` returns. -/
  | wake (link : Nat)
  | removeIf (link : Nat)
  /-- A task of the link or of one of its users takes a step. -/
  | users (link : Nat) (act : UsersAct)

namespace Registry
variable (r : Registry)

def put (n : Nat) (link : Link) : Registry := { r with links := Function.update r.links n (some link) }

/-- The session most recently inserted for a key. -/
def latest (key : Key) : Option Nat :=
  ((r.insertions.filter fun entry => entry.1 = key).getLast?).map Prod.snd

/-- `table.insert(key, session)` returned `previous`. -/
def afterInsert : Option Nat → Registration
  | some previous => .displacing previous
  | none => .serving

/-- The session's own `shutdown` is called by nobody but the registration that
displaces it, so it is no step of its users here. -/
def step : RegistryAct → Option Registry
  | .adopt key maxStreams =>
    some { r.put r.adopted { key, users := { session := .start maxStreams false } } with
      adopted := r.adopted + 1 }
  | .insert n => (r.links n).bind fun link =>
    if link.stage = .started then
      some { r.put n { link with stage := afterInsert (r.table link.key) } with
        table := Function.update r.table link.key (some n)
        insertions := r.insertions ++ [(link.key, n)] }
    else none
  | .shutdown n => (r.links n).bind fun link =>
    match link.stage with
    | .displacing previous => (r.links previous).bind fun old =>
      (old.users.step (.link .shutdownClear)).map fun users =>
        (r.put previous { old with users }).put n { link with stage := .aborting previous }
    | .aborting previous => (r.links previous).bind fun old =>
      (old.users.step (.link .shutdownAbort)).map fun users =>
        (r.put previous { old with users }).put n { link with stage := .serving }
    | _ => none
  | .wake n => (r.links n).bind fun link =>
    if link.stage = .serving ∧ link.users.session.reader = .ended then
      some (r.put n { link with stage := .leaving })
    else none
  | .removeIf n => (r.links n).bind fun link =>
    if link.stage = .leaving then
      some { r.put n { link with stage := .down } with
        table := if r.table link.key = some n then Function.update r.table link.key none else r.table }
    else none
  | .users n act => (r.links n).bind fun link =>
    if act = .link .shutdownClear ∨ act = .link .shutdownAbort then none
    else (link.users.step act).map fun users => r.put n { link with users }

end Registry

section Flags
variable {s t : Session} {act : Session.Act}

/-- What a link's own steps leave alone: who has shut it down, and that it has
ended. -/
theorem step_flags (stepped : s.step act = some t) (own : act ≠ .shutdownClear)
    (own' : act ≠ .shutdownAbort) :
    t.shutdowns = s.shutdowns ∧ t.aborted = s.aborted ∧ (s.reader = .ended → t.reader = .ended) := by
  have removed (s : Session) (id : UInt32) : (s.removeAndClose id).shutdowns = s.shutdowns ∧
      (s.removeAndClose id).aborted = s.aborted := by
    have side := linkSide_removeAndClose s id
    simp only [Session.linkSide, Prod.mk.injEq] at side
    exact side.2.2.2.2
  cases step_move stepped with
  | heard plain frame idle _ _ did =>
    have busy (finished : s.reader = .ended) : t.reader = .ended := by
      rw [idle] at finished
      cases finished
    cases did with
    | closes => exact ⟨(removed _ _).1, (removed _ _).2, busy⟩
    | _ => exact ⟨rfl, rfl, busy⟩
  | evicts id stream reading => exact ⟨(removed s id).1, (removed s id).2, by simp [reading]⟩
  | replies frame reading did =>
    have side := linkSide_enqueue did
    simp only [Session.linkSide, Prod.mk.injEq] at side
    refine ⟨side.2.2.2.2.1, side.2.2.2.2.2, fun finished => ?_⟩
    rw [finished] at reading
    cases reading
  | replyFails frame reading dead =>
    refine ⟨rfl, rfl, fun finished => ?_⟩
    rw [finished] at reading
    cases reading
  | shutdownClear => exact absurd rfl own
  | shutdownAbort => exact absurd rfl own'
  | readerAborted => exact ⟨rfl, rfl, fun _ => rfl⟩
  | ends => exact ⟨rfl, rfl, fun _ => rfl⟩
  | takeBatch => exact ⟨rfl, rfl, id⟩
  | feed => exact ⟨rfl, rfl, id⟩
  | writerEnds => exact ⟨rfl, rfl, id⟩
  | release => exact ⟨rfl, rfl, id⟩
  | short plain idle => exact ⟨rfl, rfl, by simp [idle]⟩
  | lapse idle => exact ⟨rfl, rfl, by simp [idle]⟩
  | admits id reading => exact ⟨rfl, rfl, by simp [reading]⟩
  | admitsNobody id reading => exact ⟨rfl, rfl, by simp [reading]⟩
  | delivers id stream body reading => exact ⟨rfl, rfl, by simp [reading]⟩
  | drops id stream body reading => exact ⟨rfl, rfl, by simp [reading]⟩
  | overflows id stream body reading => exact ⟨rfl, rfl, by simp [reading]⟩
  | dies reading => exact ⟨rfl, rfl, by simp [reading]⟩

end Flags

variable {r next : Registry} {link now : Link} {n m : Nat}

/-- How far along a link can only get. -/
structure Link.Follows (link now : Link) : Prop where
  key : now.key = link.key
  started : link.stage ≠ .started → now.stage ≠ .started
  down : link.stage = .down → now.stage = .down
  aborted : link.users.session.aborted = true → now.users.session.aborted = true
  ended : link.users.session.reader = .ended → now.users.session.reader = .ended

theorem Link.Follows.refl (link : Link) : link.Follows link := ⟨rfl, id, id, id, id⟩

/-- The registration is about to shut the other link down. -/
def Link.Aims (link : Link) (n : Nat) : Prop := link.stage = .displacing n ∨ link.stage = .aborting n

instance (link : Link) (n : Nat) : Decidable (link.Aims n) := inferInstanceAs (Decidable (_ ∨ _))

/-- The table is up to date: an entry is the newest for its key, a missing one
has been taken out by its own link, and everything that was displaced is being
taken care of. -/
structure Registry.Current (r : Registry) : Prop where
  fresh : ∀ n, r.adopted ≤ n → r.links n = none
  entered : ∀ key n, (key, n) ∈ r.insertions →
    ∃ link, r.links n = some link ∧ link.key = key ∧ link.stage ≠ .started
  newest : ∀ key n, r.table key = some n → r.latest key = some n
  absent : ∀ key n, r.table key = none → r.latest key = some n →
    ∃ link, r.links n = some link ∧ link.stage = .down
  finished : ∀ n link, r.links n = some link → link.stage = .leaving ∨ link.stage = .down →
    link.users.session.reader = .ended
  aims : ∀ m link n, r.links m = some link → link.Aims n →
    n ≠ m ∧ (link.key, n) ∈ r.insertions ∧ r.table link.key ≠ some n
  ready : ∀ m link n old, r.links m = some link → link.stage = .aborting n → r.links n = some old →
    0 < old.users.session.shutdowns
  alone : ∀ m link m' link' n, r.links m = some link → link.Aims n → r.links m' = some link' →
    link'.Aims n → m = m'
  handled : ∀ key n link, (key, n) ∈ r.insertions → r.links n = some link → r.table key ≠ some n →
    link.users.session.aborted = true ∨ (∃ m later, r.links m = some later ∧ later.Aims n) ∨
      link.users.session.reader = .ended

@[simp] theorem Registry.put_self (r : Registry) (n : Nat) (link : Link) :
    (r.put n link).links n = some link := Function.update_self _ _ _

@[simp] theorem Registry.put_other (r : Registry) (away : m ≠ n) (link : Link) :
    (r.put n link).links m = r.links m := Function.update_of_ne away _ _

theorem Registry.latest_append {key : Key} (added : next.insertions = r.insertions ++ [(key, n)])
    (other : Key) : next.latest other = if key = other then some n else r.latest other := by
  rw [Registry.latest, added, Registry.latest]
  by_cases same : key = other
  · simp [same]
  · simp [same]

theorem Registry.latest_mem {key : Key} (found : r.latest key = some n) : (key, n) ∈ r.insertions := by
  obtain ⟨⟨other, m⟩, last, same⟩ := Option.map_eq_some_iff.mp found
  obtain ⟨member, fits⟩ := List.mem_filter.mp (List.mem_of_getLast? last)
  simp only [decide_eq_true_eq] at fits
  subst fits
  subst same
  exact member

/-- A step that changes neither the table nor its history: links follow, new
duties do not appear, and a duty that goes has been done. -/
private theorem Registry.Current.relink (current : r.Current) (table : next.table = r.table)
    (insertions : next.insertions = r.insertions) (adopted : next.adopted = r.adopted)
    (forth : ∀ n link, r.links n = some link → ∃ now, next.links n = some now ∧ link.Follows now)
    (back : ∀ n now, next.links n = some now → ∃ link, r.links n = some link ∧ now.key = link.key ∧
      (now.stage = .leaving ∨ now.stage = .down → now.users.session.reader = .ended) ∧
      ∀ m, now.Aims m → link.Aims m)
    (ready : ∀ m link n old, next.links m = some link → link.stage = .aborting n →
      next.links n = some old → 0 < old.users.session.shutdowns)
    (done : ∀ m link n, r.links m = some link → link.Aims n →
      (∃ later, next.links m = some later ∧ later.Aims n) ∨
        ∃ old, next.links n = some old ∧ old.users.session.aborted = true) : next.Current := by
  have latest : next.latest = r.latest := by
    funext key
    rw [Registry.latest, Registry.latest, insertions]
  refine ⟨fun n above => ?_, fun key n member => ?_, fun key n held => ?_, fun key n gone last => ?_,
    fun n now found past => ?_, fun m now n found aims => ?_, ready,
    fun m now m' now' n found aims found' aims' => ?_, fun key n now member found away => ?_⟩
  · rw [adopted] at above
    cases shape : next.links n with
    | none => rfl
    | some now =>
      obtain ⟨link, found, -⟩ := back n now shape
      rw [current.fresh n above] at found
      cases found
  · rw [insertions] at member
    obtain ⟨link, found, key, begun⟩ := current.entered key n member
    obtain ⟨now, found', follows⟩ := forth n link found
    exact ⟨now, found', follows.key.trans key, follows.started begun⟩
  · rw [latest]
    exact current.newest key n (table ▸ held)
  · rw [latest] at last
    obtain ⟨link, found, down⟩ := current.absent key n (table ▸ gone) last
    obtain ⟨now, found', follows⟩ := forth n link found
    exact ⟨now, found', follows.down down⟩
  · obtain ⟨-, -, -, ended, -⟩ := back n now found
    exact ended past
  · obtain ⟨link, before, key, -, same⟩ := back m now found
    rw [insertions, table, key]
    exact current.aims m link n before (same n aims)
  · obtain ⟨link, before, -, -, same⟩ := back m now found
    obtain ⟨link', before', -, -, same'⟩ := back m' now' found'
    exact current.alone m link m' link' n before (same n aims) before' (same' n aims')
  · rw [insertions] at member
    rw [table] at away
    obtain ⟨link, before, -⟩ := back n now found
    obtain ⟨now', found', follows⟩ := forth n link before
    rw [found] at found'
    cases found'
    rcases current.handled key n link member before away with aborted | ⟨m, later, aimed, aims⟩ | ended
    · exact .inl (follows.aborted aborted)
    · rcases done m later n aimed aims with still | ⟨old, found', aborted⟩
      · obtain ⟨later', found', aims'⟩ := still
        exact .inr (.inl ⟨m, later', found', aims'⟩)
      · rw [found] at found'
        cases found'
        exact .inl aborted
    · exact .inr (.inr (follows.ended ended))

/-- A link after one was put in its place: that one, or another where it was. -/
private theorem put_split (given : (r.put n link).links m = some now) :
    m = n ∧ now = link ∨ m ≠ n ∧ r.links m = some now := by
  by_cases own : m = n
  · subst own
    rw [Registry.put_self] at given
    exact .inl ⟨rfl, (Option.some.inj given).symm⟩
  · rw [r.put_other own] at given
    exact .inr ⟨own, given⟩

/-- One link changes. -/
private theorem put_forth (found : r.links n = some link) (follows : link.Follows now)
    (m : Nat) (old : Link) (held : r.links m = some old) :
    ∃ now', (r.put n now).links m = some now' ∧ old.Follows now' := by
  by_cases same : m = n
  · subst same
    rw [found] at held
    cases held
    exact ⟨now, by simp, follows⟩
  · exact ⟨old, by simpa [same] using held, .refl old⟩

/-- A link that stays where it was, or has gone from waiting to leaving. -/
private theorem Registry.Current.put (current : r.Current) (found : r.links n = some link)
    (follows : link.Follows now) (shutdowns : now.users.session.shutdowns = link.users.session.shutdowns)
    (aims : ∀ m, now.Aims m ↔ link.Aims m)
    (aborting : ∀ m, now.stage = .aborting m → link.stage = .aborting m)
    (finished : now.stage = .leaving ∨ now.stage = .down → now.users.session.reader = .ended) :
    (r.put n now).Current := by
  refine current.relink rfl rfl rfl (put_forth found follows) (fun m now' held => ?_)
    (fun m now' n' old held stage held' => ?_) (fun m link' n' held aimed => .inl ?_)
  · obtain ⟨rfl, rfl⟩ | ⟨-, held⟩ := put_split held
    · exact ⟨link, found, follows.key, finished, fun m => (aims m).mp⟩
    · exact ⟨now', held, rfl, current.finished m now' held, fun _ => id⟩
  · obtain ⟨before, was, busy⟩ : ∃ before, r.links m = some before ∧ before.stage = .aborting n' := by
      obtain ⟨rfl, rfl⟩ | ⟨-, held⟩ := put_split held
      · exact ⟨link, found, aborting n' stage⟩
      · exact ⟨now', held, stage⟩
    obtain ⟨rfl, rfl⟩ | ⟨-, held'⟩ := put_split held'
    · rw [shutdowns]
      exact current.ready m before n' link was busy found
    · exact current.ready m before n' old was busy held'
  · by_cases same : m = n
    · subst same
      rw [found] at held
      cases held
      exact ⟨now, by simp, (aims n').mpr aimed⟩
    · exact ⟨link', by simpa [same] using held, aimed⟩

private theorem current_users {act : UsersAct} (current : r.Current)
    (stepped : r.step (.users n act) = some next) : next.Current := by
  obtain ⟨link, found, did⟩ := Option.bind_eq_some_iff.mp stepped
  obtain ⟨own, did⟩ := Option.ite_none_left_eq_some.mp did
  obtain ⟨users, moved, rfl⟩ := Option.map_eq_some_iff.mp did
  have flags : users.session.shutdowns = link.users.session.shutdowns ∧
      users.session.aborted = link.users.session.aborted ∧
      (link.users.session.reader = .ended → users.session.reader = .ended) := by
    cases act with
    | link act =>
      obtain ⟨session, worked, rfl⟩ := Option.map_eq_some_iff.mp moved
      refine step_flags worked ?_ ?_
      · exact fun same => own (.inl (same ▸ rfl))
      · exact fun same => own (.inr (same ▸ rfl))
    | task name act =>
      obtain ⟨⟨session, task⟩, worked, rfl⟩ := Option.map_eq_some_iff.mp moved
      have side := linkSide_taskStep worked
      simp only [Session.linkSide, Prod.mk.injEq] at side
      exact ⟨side.2.2.2.2.1, side.2.2.2.2.2, fun ended => side.2.1.trans ended⟩
  refine current.put found ⟨rfl, id, id, fun aborted => flags.2.1.trans aborted, flags.2.2⟩ flags.1
    (fun _ => .rfl) (fun _ => id) fun past => ?_
  exact flags.2.2 (current.finished n link found past)

private theorem current_wake (current : r.Current) (stepped : r.step (.wake n) = some next) :
    next.Current := by
  obtain ⟨link, found, did⟩ := Option.bind_eq_some_iff.mp stepped
  obtain ⟨⟨waiting, ended⟩, same⟩ := Option.ite_none_right_eq_some.mp did
  cases same
  refine current.put found ⟨rfl, nofun, ?_, id, id⟩ rfl (fun m => ?_) nofun fun _ => ended
  · rw [waiting]
    exact nofun
  · simp [Link.Aims, waiting]

/-- The two pieces of `shutdown`, on the link that was displaced. -/
private theorem shutdown_cases (stepped : r.step (.shutdown n) = some next) :
    ∃ link previous old users stage, r.links n = some link ∧ r.links previous = some old ∧
      next = (r.put previous { old with users }).put n { link with stage } ∧
      users.session.reader = old.users.session.reader ∧
      (link.stage = .displacing previous ∧ stage = .aborting previous ∧
          users.session.aborted = old.users.session.aborted ∧ 0 < users.session.shutdowns ∨
        link.stage = .aborting previous ∧ stage = .serving ∧ users.session.aborted = true) := by
  obtain ⟨link, found, did⟩ := Option.bind_eq_some_iff.mp stepped
  split at did
  · rename_i previous stage
    obtain ⟨old, held, moved⟩ := Option.bind_eq_some_iff.mp did
    obtain ⟨users, worked, same⟩ := Option.map_eq_some_iff.mp moved
    simp only [Users.step, Option.map_eq_some_iff] at worked
    obtain ⟨session, cleared, rfl⟩ := worked
    cases step_move cleared
    exact ⟨link, previous, old, _, _, found, held, same.symm, rfl,
      .inl ⟨stage, rfl, rfl, Nat.succ_pos _⟩⟩
  · rename_i previous stage
    obtain ⟨old, held, moved⟩ := Option.bind_eq_some_iff.mp did
    obtain ⟨users, worked, same⟩ := Option.map_eq_some_iff.mp moved
    simp only [Users.step, Option.map_eq_some_iff] at worked
    obtain ⟨session, told, rfl⟩ := worked
    cases step_move told
    exact ⟨link, previous, old, _, _, found, held, same.symm, rfl, .inr ⟨stage, rfl, rfl⟩⟩
  · cases did

private theorem current_shutdown (current : r.Current) (stepped : r.step (.shutdown n) = some next) :
    next.Current := by
  obtain ⟨link, previous, old, users, stage, found, held, rfl, reader, which⟩ := shutdown_cases stepped
  have aims : link.Aims previous := which.elim (fun one => .inl one.1) fun two => .inr two.1
  have only {m : Nat} (aimed : link.Aims m) : previous = m := by
    rcases which with ⟨before, -⟩ | ⟨before, -⟩ <;> rw [Link.Aims, before] at aimed <;> simpa using aimed
  obtain ⟨away, -, -⟩ := current.aims n link previous found aims
  have oldFollows : old.Follows { old with users } := by
    refine ⟨rfl, id, id, fun told => ?_, fun ended => reader.trans ended⟩
    rcases which with ⟨-, -, same, -⟩ | ⟨-, -, aborted⟩
    · exact same.trans told
    · exact aborted
  have linkFollows : link.Follows { link with stage } := by
    refine ⟨rfl, fun _ => ?_, fun down => ?_, id, id⟩
    · rcases which with ⟨-, rfl, -⟩ | ⟨-, rfl, -⟩ <;> exact nofun
    · rcases which with ⟨before, -⟩ | ⟨before, -⟩ <;> rw [before] at down <;> cases down
  have there : (r.put previous { old with users }).links n = some link := by
    rw [r.put_other away.symm, found]
  -- Every other link is where it was.
  have split {m : Nat} {now : Link}
      (given : ((r.put previous { old with users }).put n { link with stage }).links m = some now) :
      m = n ∧ now = { link with stage } ∨ m = previous ∧ now = { old with users } ∨
        m ≠ n ∧ m ≠ previous ∧ r.links m = some now := by
    obtain same | ⟨own, given⟩ := put_split given
    · exact .inl same
    · obtain same | ⟨other, given⟩ := put_split given
      · exact .inr (.inl same)
      · exact .inr (.inr ⟨own, other, given⟩)
  refine current.relink rfl rfl rfl (fun m was given => ?_) (fun m now given => ?_)
    (fun m now n' gone given busy given' => ?_) (fun m was n' given aimed => ?_)
  · obtain ⟨mid, given, first⟩ := put_forth held oldFollows m was given
    obtain ⟨now, given, second⟩ := put_forth there linkFollows m mid given
    exact ⟨now, given, second.key.trans first.key, fun h => second.started (first.started h),
      fun h => second.down (first.down h), fun h => second.aborted (first.aborted h),
      fun h => second.ended (first.ended h)⟩
  · obtain ⟨rfl, rfl⟩ | ⟨rfl, rfl⟩ | ⟨-, -, before⟩ := split given
    · refine ⟨link, found, rfl, fun past => ?_, fun m' aimed => ?_⟩
      · rcases which with ⟨-, rfl, -⟩ | ⟨-, rfl, -⟩ <;> simp at past
      · rcases which with ⟨-, rfl, -⟩ | ⟨-, rfl, -⟩
        · obtain rfl : previous = m' := by simpa [Link.Aims] using aimed
          exact aims
        · simp [Link.Aims] at aimed
    · refine ⟨old, held, rfl, fun past => ?_, fun _ => id⟩
      exact reader.trans (current.finished _ old held past)
    · exact ⟨now, before, rfl, current.finished m now before, fun _ => id⟩
  · have before : m = n ∧ n' = previous ∧ 0 < users.session.shutdowns ∨
        m ≠ n ∧ ∃ was, r.links m = some was ∧ was.stage = .aborting n' := by
      obtain ⟨rfl, rfl⟩ | ⟨rfl, rfl⟩ | ⟨other, -, was⟩ := split given
      · rcases which with ⟨-, rfl, -, some⟩ | ⟨-, rfl, -⟩
        · exact .inl ⟨rfl, by simpa using busy.symm, some⟩
        · cases busy
      · exact .inr ⟨away, old, held, busy⟩
      · exact .inr ⟨other, now, was, busy⟩
    rcases before with ⟨rfl, rfl, some⟩ | ⟨other, was, held', aborting⟩
    · rw [Registry.put_other _ away, Registry.put_self] at given'
      cases given'
      exact some
    · obtain ⟨rfl, rfl⟩ | ⟨rfl, rfl⟩ | ⟨-, -, same⟩ := split given'
      · exact current.ready m was _ link held' aborting found
      · exact absurd (current.alone m was n link _ held' (.inr aborting) found aims) other
      · exact current.ready m was n' gone held' aborting same
  · by_cases own : m = n
    · subst own
      rw [found] at given
      cases given
      obtain rfl := only aimed
      rcases which with ⟨-, rfl, -⟩ | ⟨-, -, told⟩
      · exact .inl ⟨_, Registry.put_self _ _ _, .inr rfl⟩
      · refine .inr ⟨{ old with users }, ?_, told⟩
        rw [Registry.put_other _ away, Registry.put_self]
    · refine .inl ?_
      by_cases other : m = previous
      · subst other
        rw [held] at given
        cases given
        exact ⟨{ old with users }, by rw [Registry.put_other _ own, Registry.put_self], aimed⟩
      · exact ⟨was, by rw [Registry.put_other _ own, Registry.put_other _ other, given], aimed⟩

private theorem current_adopt {key : Key} {maxStreams : Nat} (current : r.Current)
    (stepped : r.step (.adopt key maxStreams) = some next) : next.Current := by
  cases stepped
  have fresh : r.links r.adopted = none := current.fresh _ (Nat.le_refl _)
  have kept {m : Nat} {link : Link} (given : r.links m = some link) :
      (r.put r.adopted { key, users := { session := .start maxStreams false } }).links m = some link := by
    have other : m ≠ r.adopted := by
      rintro rfl
      rw [fresh] at given
      cases given
    rw [r.put_other other, given]
  have split {m : Nat} {now : Link} (given :
      (r.put r.adopted { key, users := { session := .start maxStreams false } }).links m = some now) :
      now.stage = .started ∨ r.links m = some now := by
    obtain ⟨-, rfl⟩ | ⟨-, given⟩ := put_split given
    · exact .inl rfl
    · exact .inr given
  have busy {m n : Nat} {now : Link} (given :
      (r.put r.adopted { key, users := { session := .start maxStreams false } }).links m = some now)
      (aims : now.Aims n) : r.links m = some now := by
    refine (split given).resolve_left fun started => ?_
    simp [Link.Aims, started] at aims
  refine ⟨fun n above => ?_, fun key n member => ?_, current.newest, fun key n gone last => ?_,
    fun n now given past => ?_, fun m now n given aims => current.aims m now n (busy given aims) aims,
    fun m now n old given stage given' => ?_, fun m now m' now' n given aims given' aims' => ?_,
    fun key n now member given away => ?_⟩
  · dsimp only at above
    have other : n ≠ r.adopted := by omega
    exact (r.put_other other _).trans (current.fresh n (by omega))
  · obtain ⟨link, found, same, begun⟩ := current.entered key n member
    exact ⟨link, kept found, same, begun⟩
  · obtain ⟨link, found, down⟩ := current.absent key n gone last
    exact ⟨link, kept found, down⟩
  · refine (split given).elim (fun started => ?_) fun before => current.finished n now before past
    simp [started] at past
  · have was := busy given (.inr stage)
    obtain ⟨-, member, -⟩ := current.aims m now n was (.inr stage)
    obtain ⟨target, found, -⟩ := current.entered _ n member
    have same := kept found
    rw [given'] at same
    cases same
    exact current.ready m now n _ was stage found
  · exact current.alone m now m' now' n (busy given aims) aims (busy given' aims') aims'
  · obtain ⟨link, found, -⟩ := current.entered key n member
    have same := kept found
    rw [given] at same
    cases same
    rcases current.handled key n _ member found away with aborted | ⟨m, later, aimed, aims⟩ | ended
    · exact .inl aborted
    · exact .inr (.inl ⟨m, later, kept aimed, aims⟩)
    · exact .inr (.inr ended)

/-- A link that has not been inserted is nobody's target. -/
private theorem Registry.Current.unentered (current : r.Current) (found : r.links n = some link)
    (started : link.stage = .started) {key : Key} (member : (key, m) ∈ r.insertions) : m ≠ n := by
  rintro rfl
  obtain ⟨link', found', -, begun⟩ := current.entered key m member
  rw [found] at found'
  cases found'
  exact begun started

/-- A routed link has been inserted. -/
private theorem Registry.Current.routed (current : r.Current) {key : Key}
    (held : r.table key = some m) : (key, m) ∈ r.insertions :=
  Registry.latest_mem (current.newest key m held)

/-- A link is inserted under its own key. -/
private theorem Registry.Current.one_key (current : r.Current) {key key' : Key}
    (one : (key, m) ∈ r.insertions) (two : (key', m) ∈ r.insertions) : key = key' := by
  obtain ⟨first, held, same, -⟩ := current.entered key m one
  obtain ⟨second, held', same', -⟩ := current.entered key' m two
  rw [held] at held'
  cases held'
  exact same.symm.trans same'

/-- Nobody aims at a link that is still routed: whoever displaces it takes it out
of the table. -/
private theorem Registry.Current.aims_unrouted (current : r.Current) (found : r.links m = some link)
    (aims : link.Aims n) {key : Key} (held : r.table key = some n) : False := by
  obtain ⟨-, member, away⟩ := current.aims m link n found aims
  rw [current.one_key member (current.routed held)] at away
  exact away held

/-- An insert aims at the link it displaces. -/
private theorem afterInsert_aims {previous : Option Nat}
    (aims : ({ link with stage := Registry.afterInsert previous } : Link).Aims m) : previous = some m := by
  cases previous with
  | none => simp [Link.Aims, Registry.afterInsert] at aims
  | some previous => simpa [Link.Aims, Registry.afterInsert] using aims

/-- What an insert of link `n` does to the registry. -/
private structure Inserted (r : Registry) (n : Nat) (link : Link) (next : Registry) : Prop where
  found : r.links n = some link
  started : link.stage = .started
  table : next.table = Function.update r.table link.key (some n)
  links : next.links = (r.put n { link with stage := Registry.afterInsert (r.table link.key) }).links
  adopted : next.adopted = r.adopted
  insertions : next.insertions = r.insertions ++ [(link.key, n)]

private theorem insert_cases (stepped : r.step (.insert n) = some next) :
    ∃ link, Inserted r n link next := by
  obtain ⟨link, found, did⟩ := Option.bind_eq_some_iff.mp stepped
  obtain ⟨started, made⟩ := Option.ite_none_right_eq_some.mp did
  cases made
  exact ⟨link, found, started, rfl, rfl, rfl, rfl⟩

section Inserted
variable (inserted : Inserted r n link next)
include inserted

private theorem Inserted.here : next.table link.key = some n := by
  rw [inserted.table, Function.update_self]

private theorem Inserted.elsewhere {key : Key} (other : key ≠ link.key) :
    next.table key = r.table key := by
  rw [inserted.table, Function.update_of_ne other]

private theorem Inserted.self :
    next.links n = some { link with stage := Registry.afterInsert (r.table link.key) } := by
  rw [inserted.links, Registry.put_self]

/-- Every other link is where it was. -/
private theorem Inserted.kept {now : Link} (other : m ≠ n) (given : r.links m = some now) :
    next.links m = some now := by
  rw [inserted.links, r.put_other other, given]

private theorem Inserted.split {now : Link} (given : next.links m = some now) :
    m = n ∧ now = { link with stage := Registry.afterInsert (r.table link.key) } ∨
      m ≠ n ∧ r.links m = some now := by
  rw [inserted.links] at given
  exact put_split given

private theorem Inserted.apart (current : r.Current) {key : Key} (member : (key, m) ∈ r.insertions) :
    m ≠ n :=
  current.unentered inserted.found inserted.started member

private theorem Inserted.member {key : Key} (member : (key, m) ∈ next.insertions) :
    (key, m) ∈ r.insertions ∨ key = link.key ∧ m = n := by
  rw [inserted.insertions] at member
  rcases List.mem_append.mp member with old | new
  · exact .inl old
  · cases List.mem_singleton.mp new
    exact .inr ⟨rfl, rfl⟩

/-- A link that somebody aims at has been inserted, and is routed no more. -/
private theorem Inserted.aims (current : r.Current) {now : Link} {aim : Nat}
    (given : next.links m = some now) (aims : now.Aims aim) :
    aim ≠ m ∧ (now.key, aim) ∈ next.insertions ∧ next.table now.key ≠ some aim := by
  have still {key : Key} (member : (key, aim) ∈ r.insertions) : (key, aim) ∈ next.insertions := by
    rw [inserted.insertions]
    exact List.mem_append_left _ member
  have displaced {key : Key} (member : (key, aim) ∈ r.insertions) : next.table link.key ≠ some aim := by
    rw [inserted.here]
    exact fun same => inserted.apart current member (Option.some.inj same).symm
  obtain ⟨rfl, rfl⟩ | ⟨-, before⟩ := inserted.split given
  · have member := current.routed (afterInsert_aims aims)
    exact ⟨inserted.apart current member, still member, displaced member⟩
  · obtain ⟨other, member, away⟩ := current.aims m now aim before aims
    refine ⟨other, still member, ?_⟩
    by_cases same : now.key = link.key
    · rw [same]
      exact displaced member
    · rw [inserted.elsewhere same]
      exact away

/-- The insert takes care of the link it displaces; the others are taken care of as
before. -/
private theorem Inserted.handled (current : r.Current) {key : Key} {now : Link}
    (old : (key, m) ∈ r.insertions) (given : next.links m = some now) (away : next.table key ≠ some m) :
    now.users.session.aborted = true ∨
      (∃ k later, next.links k = some later ∧ later.Aims m) ∨ now.users.session.reader = .ended := by
  obtain ⟨same, -⟩ | ⟨-, before⟩ := inserted.split given
  · exact absurd same (inserted.apart current old)
  by_cases held : r.table key = some m
  · have same : key = link.key := by
      by_contra other
      rw [inserted.elsewhere other] at away
      exact away held
    subst same
    refine .inr (.inl ⟨n, _, inserted.self, ?_⟩)
    rw [held]
    exact .inl rfl
  · rcases current.handled key m now old before held with told | ⟨k, later, aimed, aims⟩ | ended
    · exact .inl told
    · refine .inr (.inl ⟨k, later, inserted.kept ?_ aimed, aims⟩)
      rintro rfl
      rw [inserted.found] at aimed
      cases aimed
      simp [Link.Aims, inserted.started] at aims
    · exact .inr (.inr ended)

private theorem Inserted.alone (current : r.Current) {now now' : Link} {m' aim : Nat}
    (given : next.links m = some now) (aims : now.Aims aim) (given' : next.links m' = some now')
    (aims' : now'.Aims aim) : m = m' := by
  obtain ⟨rfl, rfl⟩ | ⟨-, before⟩ := inserted.split given
  · obtain ⟨rfl, -⟩ | ⟨-, before'⟩ := inserted.split given'
    · rfl
    · exact (current.aims_unrouted before' aims' (afterInsert_aims aims)).elim
  · obtain ⟨rfl, rfl⟩ | ⟨-, before'⟩ := inserted.split given'
    · exact (current.aims_unrouted before aims (afterInsert_aims aims')).elim
    · exact current.alone m now m' now' aim before aims before' aims'

end Inserted

private theorem current_insert (current : r.Current) (stepped : r.step (.insert n) = some next) :
    next.Current := by
  obtain ⟨link, inserted⟩ := insert_cases stepped
  refine ⟨fun m above => ?_, fun key m member => ?_, fun key m held => ?_, fun key m gone last => ?_,
    fun m now given past => ?_, fun m now m' given aims => inserted.aims current given aims,
    fun m now m' old given stage given' => ?_,
    fun m now m' now' aim given aims given' aims' => inserted.alone current given aims given' aims',
    fun key m now member given away => ?_⟩
  · rw [inserted.adopted] at above
    have other : m ≠ n := by
      rintro rfl
      cases inserted.found.symm.trans (current.fresh m above)
    rw [inserted.links, r.put_other other, current.fresh m above]
  · obtain old | ⟨rfl, rfl⟩ := inserted.member member
    · obtain ⟨link', found', same, begun⟩ := current.entered key m old
      exact ⟨link', inserted.kept (inserted.apart current old) found', same, begun⟩
    · refine ⟨_, inserted.self, rfl, ?_⟩
      dsimp only
      cases r.table link.key <;> simp [Registry.afterInsert]
  · rw [Registry.latest_append inserted.insertions]
    by_cases same : key = link.key
    · subst same
      rw [if_pos rfl, ← inserted.here, held]
    · rw [if_neg (Ne.symm same), current.newest key m (inserted.elsewhere same ▸ held)]
  · have other : key ≠ link.key := by
      rintro rfl
      rw [inserted.here] at gone
      cases gone
    rw [Registry.latest_append inserted.insertions, if_neg (Ne.symm other)] at last
    obtain ⟨link', found', down⟩ := current.absent key m (inserted.elsewhere other ▸ gone) last
    exact ⟨link', inserted.kept (inserted.apart current (Registry.latest_mem last)) found', down⟩
  · obtain ⟨rfl, rfl⟩ | ⟨-, before⟩ := inserted.split given
    · cases shape : r.table link.key <;> simp [shape, Registry.afterInsert] at past
    · exact current.finished m now before past
  · obtain ⟨rfl, rfl⟩ | ⟨-, before⟩ := inserted.split given
    · cases shape : r.table link.key <;> simp [shape, Registry.afterInsert] at stage
    · obtain ⟨-, member, -⟩ := current.aims m now m' before (.inr stage)
      obtain ⟨same, -⟩ | ⟨-, before'⟩ := inserted.split given'
      · exact absurd same (inserted.apart current member)
      · exact current.ready m now m' old before stage before'
  · obtain old | ⟨rfl, rfl⟩ := inserted.member member
    · exact inserted.handled current old given away
    · exact absurd inserted.here away

/-- A link that is down takes its own entry with it. -/
private theorem Registry.Current.unroute (current : r.Current) (found : r.links n = some link)
    (down : link.stage = .down) (held : r.table link.key = some n) :
    ({ r with table := Function.update r.table link.key none } : Registry).Current := by
  have shrinks {key : Key} {m : Nat} (kept : Function.update r.table link.key none key = some m) :
      r.table key = some m := by
    by_cases same : key = link.key
    · subst same
      rw [Function.update_self] at kept
      cases kept
    · rwa [Function.update_of_ne same] at kept
  refine ⟨current.fresh, current.entered, fun key m kept => current.newest key m (shrinks kept),
    fun key m gone last => ?_, current.finished, fun m now m' given aims => ?_, current.ready,
    current.alone, fun key m now member given away => ?_⟩
  · by_cases same : key = link.key
    · subst same
      have newest := current.newest _ n held
      obtain rfl : m = n := Option.some.inj (last.symm.trans newest)
      exact ⟨link, found, down⟩
    · dsimp only at gone
      rw [Function.update_of_ne same] at gone
      exact current.absent key m gone last
  · obtain ⟨other, member, away⟩ := current.aims m now m' given aims
    exact ⟨other, member, fun kept => away (shrinks kept)⟩
  · by_cases was : r.table key = some m
    · have same : key = link.key := by
        by_contra other
        dsimp only at away
        rw [Function.update_of_ne other] at away
        exact away was
      subst same
      obtain rfl : m = n := Option.some.inj (was.symm.trans held)
      obtain rfl : link = now := Option.some.inj (found.symm.trans given)
      exact .inr (.inr (current.finished m link found (.inr down)))
    · exact current.handled key m now member given was

private theorem current_removeIf (current : r.Current) (stepped : r.step (.removeIf n) = some next) :
    next.Current := by
  obtain ⟨link, found, did⟩ := Option.bind_eq_some_iff.mp stepped
  obtain ⟨leaving, made⟩ := Option.ite_none_right_eq_some.mp did
  cases made
  have down : (r.put n { link with stage := .down }).Current := by
    refine current.put found ⟨rfl, nofun, fun _ => rfl, id, id⟩ rfl (fun m => ?_) nofun fun _ => ?_
    · simp [Link.Aims, leaving]
    · exact current.finished n link found (.inl leaving)
  by_cases held : r.table link.key = some n
  · rw [if_pos held]
    have taken := down.unroute (r.put_self n { link with stage := .down }) rfl held
    exact taken
  · rw [if_neg held]
    exact down

theorem step_current {act : RegistryAct} (current : r.Current) (stepped : r.step act = some next) :
    next.Current := by
  cases act with
  | adopt key maxStreams => exact current_adopt current stepped
  | insert n => exact current_insert current stepped
  | shutdown n => exact current_shutdown current stepped
  | wake n => exact current_wake current stepped
  | removeIf n => exact current_removeIf current stepped
  | users n act => exact current_users current stepped

/-- Cleaning up takes out the link's own entry or none. -/
theorem removeIf_keeps (stepped : r.step (.removeIf n) = some next) {key : Key} (other : m ≠ n)
    (held : r.table key = some m) : next.table key = some m := by
  obtain ⟨link, found, did⟩ := Option.bind_eq_some_iff.mp stepped
  obtain ⟨-, made⟩ := Option.ite_none_right_eq_some.mp did
  cases made
  dsimp only
  split
  · rename_i own
    have away : key ≠ link.key := by
      rintro rfl
      exact other (Option.some.inj (held.symm.trans own))
    rw [Function.update_of_ne away, held]
  · exact held

/-- The registration that is about to shut a link down can do so. -/
theorem Registry.Current.can_shutdown (current : r.Current) (found : r.links m = some link)
    (aims : link.Aims n) : (r.step (.shutdown m)).isSome = true := by
  obtain ⟨-, member, -⟩ := current.aims m link n found aims
  obtain ⟨old, held, -⟩ := current.entered _ n member
  obtain displacing | aborting := aims
  · simp [Registry.step, found, displacing, held, Users.step, Session.step]
  · have ready := current.ready m link n old found aborting held
    simp [Registry.step, found, aborting, held, Users.step, Session.step, ready]

/-- The routing table in every reachable state, whatever the links, their users
and their registrations do and in whatever order. An entry is the session most
recently inserted for its key; a key without one has had none, or the latest has
finished its own cleanup; a cleanup takes no other session's entry; and a session
that was inserted and is not the entry any more has been shut down, is about to
be by the registration of the same key that displaced it, or has ended. -/
theorem routing_table_is_current {actions : List RegistryAct}
    (ran : run Registry.step {} actions = some r) :
    (∀ key n, r.table key = some n → r.latest key = some n) ∧
    (∀ key n, r.table key = none → r.latest key = some n →
      ∃ link, r.links n = some link ∧ link.stage = .down) ∧
    (∀ n next, r.step (.removeIf n) = some next → ∀ key m, m ≠ n → r.table key = some m →
      next.table key = some m) ∧
    (∀ key n, (key, n) ∈ r.insertions → r.table key ≠ some n →
      ∃ link, r.links n = some link ∧
        (link.users.session.aborted = true ∨
          (∃ m later, r.links m = some later ∧ later.key = key ∧ later.Aims n ∧
            (r.step (.shutdown m)).isSome = true) ∨
          link.users.session.reader = .ended)) := by
  have start : ({} : Registry).Current := by
    constructor <;> simp [Registry.latest]
  have current := run_preserves Registry.Current (fun _ _ _ => step_current) start ran
  refine ⟨current.newest, current.absent, fun n next stepped key m other held => ?_,
    fun key n member away => ?_⟩
  · exact removeIf_keeps stepped other held
  · obtain ⟨link, found, same, -⟩ := current.entered key n member
    refine ⟨link, found, ?_⟩
    rcases current.handled key n link member found away with told | ⟨m, later, held, aims⟩ | ended
    · exact .inl told
    · obtain ⟨-, member', -⟩ := current.aims m later n held aims
      obtain ⟨link', found', same', -⟩ := current.entered later.key n member'
      rw [found] at found'
      cases found'
      exact .inr (.inl ⟨m, later, held, same'.symm.trans same, aims, current.can_shutdown held aims⟩)
    · exact .inr (.inr ended)

/-- Two links prove the same key; the second takes the entry over, and the first
has begun to be torn down when the second one's peer goes away. -/
def takenOver (key : Key) : List RegistryAct :=
  [.adopt key 4, .insert 0, .adopt key 4, .insert 1, .shutdown 1, .users 1 (.link .lapse)]

theorem routing_table_is_current_taken_over :
    let key : Key := ⟨List.replicate 32 7, rfl⟩
    ∃ r, run Registry.step {} (takenOver key) = some r ∧ r.table key = some 1 ∧
      r.latest key = some 1 ∧ ∃ link, r.links 0 = some link ∧
        (link.users.session.aborted = true ∨
          (∃ m later, r.links m = some later ∧ later.key = key ∧ later.Aims 0 ∧
            (r.step (.shutdown m)).isSome = true) ∨
          link.users.session.reader = .ended) := by
  intro key
  have runs : ((run Registry.step {} (takenOver key)).any fun r =>
      r.table key = some 1 ∧ (key, 0) ∈ r.insertions) = true := by decide +kernel
  obtain ⟨r, ran, holds⟩ := run_reaches runs
  have current := routing_table_is_current ran
  refine ⟨r, ran, holds.1, current.1 key 1 holds.1, current.2.2.2 key 0 holds.2 ?_⟩
  rw [holds.1]
  exact nofun

end DshProxy.Mux

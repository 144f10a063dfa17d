import DshProxy.FreshIds

/-! Who takes a stream out of the map. Every insert and every removal goes by
the bare id, and ids come from two sides: a stream is safe from others exactly
because, and as long as, no other stream of the link is given its id. -/
namespace DshProxy.Mux
open Sync Wire Transitions

variable {s t : Session} {u next : Users}

/-- The stream is the entry for its id. -/
def Session.Entry (s : Session) (n : Nat) : Prop := s.streams (s.arena n).id = some n

/-- The link ends the stream: a CLOSE for it, its own overflow, or a teardown. -/
def Session.Ends (s : Session) (n : Nat) : Session.Act → Prop
  | .recv plain => ∃ frame, Frame.parse plain = some frame ∧ frame.kind = .close ∧
      frame.id = (s.arena n).id
  | .advance => s.reader = .dying ∨ ∃ id, s.reader = .overflow id n
  | .shutdownClear => True
  | _ => False

/-- The link ends the stream, or one of its own handles does: `StreamTx::close`,
`close_stream`, or the open that could not announce it. -/
def Users.Ends (u : Users) (n : Nat) : UsersAct → Prop
  | .link act => u.session.Ends n act
  | .task name .proceed => u.tasks name = .opening (.giveUp n)
  | .task _ (.close stream) | .task _ (.closeStream stream _) => stream = n
  | _ => False

/-- The step leaves every entry in its place but those it has a right to end. -/
def Users.Keeps (u : Users) (act : UsersAct) : Prop :=
  ∀ next, u.step act = some next → ∀ n, u.session.Entry n → next.session.Entry n ∨ u.Ends n act

/-- The id the step gives to a new stream, its own or the peer's. -/
def Users.inserts (u : Users) : UsersAct → Option UInt32
  | .link act => u.session.detaches act
  | .task name .proceed =>
    match u.tasks name with
    | .opening (.insert id) => some id
    | _ => none
  | _ => none

/-- A new stream gets an id that no stream of the link has had. -/
def Users.NewIds (u : Users) (act : UsersAct) : Prop :=
  ∀ id ∈ u.inserts act, ∀ n < u.session.created, (u.session.arena n).id ≠ id

instance (u : Users) (act : UsersAct) : Decidable (u.NewIds act) :=
  Option.decidableForallMem _

/-- Where the link inserts or evicts a stream by its id, no other is there. -/
def Session.Spares (s : Session) : Session.Act → Prop
  | .advance =>
    match s.reader with
    | .accepting id => s.streams id = none
    | .overflow id n => ∀ k ∈ s.streams id, k = n
    | _ => True
  | _ => True

/-- Where a step inserts or removes a stream by its id, no other is there. -/
def Users.Spares (u : Users) : UsersAct → Prop
  | .link act => u.session.Spares act
  | .task name .proceed =>
    match u.tasks name with
    | .opening (.insert id) => u.session.streams id = none
    | .opening (.giveUp n) => ∀ k ∈ u.session.streams (u.session.arena n).id, k = n
    | _ => True
  | .task _ (.close n) | .task _ (.closeStream n _) =>
    ∀ k ∈ u.session.streams (u.session.arena n).id, k = n
  | _ => True

/-- Streams have ids of their own, and opens are about streams that exist. -/
structure Users.Owned (u : Users) : Prop where
  wired : Wired u.session
  apart : ∀ n k, n < u.session.created → k < u.session.created →
    (u.session.arena n).id = (u.session.arena k).id → n = k
  announced : ∀ name n, u.tasks name = .opening (.announce n) ∨ u.tasks name = .opening (.giveUp n) →
    n < u.session.created

theorem entry_congr (streams : t.streams = s.streams) (id : (t.arena n).id = (s.arena n).id) :
    t.Entry n ↔ s.Entry n := by
  unfold Session.Entry
  rw [streams, id]

theorem entry_alike (same : Alike s t) : t.Entry n ↔ s.Entry n :=
  entry_congr same.streams (same.id n)

theorem entry_modify (s : Session) (stream : Nat) (change : Stream → Stream)
    (id : ∀ st, (change st).id = st.id) : (s.modify stream change).Entry n ↔ s.Entry n := by
  refine entry_congr rfl ?_
  by_cases same : n = stream
  · subst same
    simp [Session.modify, id]
  · simp [Session.modify, same]

/-- A removal by id leaves streams with other ids alone. -/
theorem entry_remove (s : Session) (id : UInt32) (n : Nat) :
    (s.remove id).Entry n ↔ s.Entry n ∧ (s.arena n).id ≠ id := by
  unfold Session.Entry
  rw [arena_remove, remove_streams]
  by_cases same : (s.arena n).id = id <;> simp [same]

theorem entry_removeAndClose (s : Session) (id : UInt32) (n : Nat) :
    (s.removeAndClose id).Entry n ↔ s.Entry n ∧ (s.arena n).id ≠ id := by
  unfold Session.Entry
  rw [id_removeAndClose, removeAndClose_streams]
  by_cases same : (s.arena n).id = id <;> simp [same]

/-- So does an insert. -/
theorem entry_insert (known : n < s.created) (id : UInt32) :
    (s.insert id).Entry n ↔ s.Entry n ∧ (s.arena n).id ≠ id := by
  unfold Session.Entry
  rw [arena_insert s id known]
  by_cases same : (s.arena n).id = id
  · simp [Session.insert, same, Ne.symm (Nat.ne_of_lt known)]
  · simp [Session.insert, same]

/-- Taking away what is under an id hits the right stream, if any. -/
private theorem removal_keeps (valid : Valid s) (id : UInt32) (k : Nat) :
    (∀ n ∈ s.streams id, n = k) ↔
      ∀ n, s.Entry n → (s.Entry n ∧ (s.arena n).id ≠ id) ∨ k = n := by
  constructor
  · intro mine n entry
    by_cases same : (s.arena n).id = id
    · exact .inr (mine n (same ▸ entry)).symm
    · exact .inl ⟨entry, same⟩
  · intro keeps n found
    obtain ⟨-, named⟩ := valid.known found
    obtain ⟨-, other⟩ | same := keeps n (named ▸ found : s.streams (s.arena n).id = some n)
    · exact absurd named other
    · exact same.symm

/-- Putting a stream under an id takes away whatever is there. -/
private theorem insertion_keeps (valid : Valid s) (id : UInt32) :
    s.streams id = none ↔ ∀ n, s.Entry n → s.Entry n ∧ (s.arena n).id ≠ id := by
  constructor
  · intro free n entry
    refine ⟨entry, fun same => ?_⟩
    rw [Session.Entry, same, free] at entry
    cases entry
  · intro keeps
    rw [Option.eq_none_iff_forall_ne_some]
    intro n found
    obtain ⟨-, named⟩ := valid.known found
    exact (keeps n (named ▸ found : s.streams (s.arena n).id = some n)).2 named

/-- A link step ends no stream it has no right to exactly when it finds no other
stream where it inserts or evicts one. -/
theorem step_keeps (wired : Wired s) (stepped : s.step act = some t) :
    s.Spares act ↔ ∀ n, s.Entry n → t.Entry n ∨ s.Ends n act := by
  have valid := wired.valid
  have still {t : Session} (same : ∀ n, t.Entry n ↔ s.Entry n) :
      ∀ n, s.Entry n → t.Entry n ∨ s.Ends n act := fun n entry => .inl ((same n).mpr entry)
  have inserts {id : UInt32} (reading : s.reader = .accepting id) {t : Session}
      (same : ∀ n, t.Entry n ↔ (s.insert id).Entry n) :
      s.Spares .advance ↔ ∀ n, s.Entry n → t.Entry n ∨ s.Ends n .advance := by
    simp only [Session.Spares, Session.Ends, reading, reduceCtorEq, exists_false, or_self, or_false]
    rw [insertion_keeps valid id]
    refine forall_congr' fun n => imp_congr_right fun entry => ?_
    rw [same, entry_insert (valid.known entry).1]
  cases step_move stepped with
  | heard plain frame _ _ parsed did =>
    refine iff_of_true trivial ?_
    cases did with
    | grants aim =>
      exact still fun n => entry_modify { s with log := s.log ++ [frame] } aim _ fun _ => rfl
    | closes _ kind =>
      intro n entry
      rw [entry_removeAndClose]
      by_cases same : frame.id = (s.arena n).id
      · exact .inr ⟨frame, parsed, kind, same⟩
      · exact .inl ⟨entry, Ne.symm same⟩
    | _ => exact still fun n => Iff.rfl
  | admits id reading => exact inserts reading fun n => Iff.rfl
  | admitsNobody id reading =>
    exact inserts reading fun n =>
      entry_modify { s.insert id with reader := .idle } s.created _ fun _ => rfl
  | delivers id stream body reading =>
    refine iff_of_true (by simp [Session.Spares, reading]) (still fun n => ?_)
    exact entry_modify s stream
      (fun st => { st with inbox := (s.arena stream).inbox.push body }) fun _ => rfl
  | evicts id stream reading =>
    simp only [Session.Spares, Session.Ends, reading, reduceCtorEq, false_or, Reader.overflow.injEq]
    rw [removal_keeps valid id stream]
    refine forall_congr' fun n => imp_congr_right fun entry => ?_
    exact or_congr (entry_removeAndClose s id n).symm (by simp)
  | dies reading => exact iff_of_true (by simp [Session.Spares, reading]) fun n _ => .inr (.inl reading)
  | replies frame _ did =>
    have kept := alike_enqueue did
    exact iff_of_true trivial (still fun n => entry_congr kept.streams (kept.id n))
  | shutdownClear => exact iff_of_true trivial fun n _ => .inr trivial
  | drops id stream body reading =>
    exact iff_of_true (by simp [Session.Spares, reading]) (still fun n => Iff.rfl)
  | overflows id stream body reading =>
    exact iff_of_true (by simp [Session.Spares, reading]) (still fun n => Iff.rfl)
  | ends reading => exact iff_of_true (by simp [Session.Spares, reading]) (still fun n => Iff.rfl)
  | _ => exact iff_of_true trivial (still fun n => Iff.rfl)

/-- Operations are about streams that exist. -/
theorem taskStep_known (stepped : s.taskStep task act = some (t, task')) :
    match act with
    | .close n | .closeStream n _ => n < s.created
    | _ => True := by
  cases act with
  | close n =>
    obtain ⟨-, begun⟩ := Option.ite_none_right_eq_some.mp stepped
    exact (Option.ite_none_right_eq_some.mp begun).1
  | closeStream n sent =>
    obtain ⟨-, begun⟩ := Option.ite_none_right_eq_some.mp stepped
    exact (Option.ite_none_right_eq_some.mp begun).1
  | _ => trivial

/-- The same for every step. -/
theorem users_keep (wired : Wired u.session) (stepped : u.step act = some next) :
    u.Spares act ↔ u.Keeps act := by
  have valid := wired.valid
  have only : u.Keeps act ↔ ∀ n, u.session.Entry n → next.session.Entry n ∨ u.Ends n act := by
    refine ⟨fun keeps => keeps next stepped, fun keeps other stepped' => ?_⟩
    obtain rfl : next = other := Option.some.inj (stepped.symm.trans stepped')
    exact keeps
  rw [only]
  cases act with
  | link act =>
    obtain ⟨session, did, rfl⟩ := Option.map_eq_some_iff.mp stepped
    exact step_keeps wired did
  | task name act =>
    obtain ⟨⟨session, task⟩, did, rfl⟩ := Option.map_eq_some_iff.mp stepped
    obtain ⟨same, closes, opens⟩ | ⟨k, sent, rfl, same⟩ | ⟨id, rfl, holding, same⟩ |
      ⟨k, rfl, giving, same⟩ | ⟨k, rfl, same⟩ := taskStep_map did
    · refine iff_of_true ?_ fun n entry => .inl ((entry_alike same).mpr entry)
      cases act with
      | proceed =>
        simp only [Users.Spares]
        split
        · rename_i id holding
          exact absurd holding ((opens rfl).1 id)
        · rename_i n giving
          exact absurd giving ((opens rfl).2 n)
        · trivial
      | close n => exact absurd rfl (closes.1 n)
      | closeStream n sent => exact absurd rfl (closes.2 n sent)
      | _ => trivial
    · simp only [Users.Spares, Users.Ends]
      rw [removal_keeps valid _ k]
      refine forall_congr' fun n => imp_congr_right fun entry => ?_
      rw [entry_alike same, entry_removeAndClose]
    · simp only [Users.Spares, Users.Ends, holding, Task.opening.injEq, reduceCtorEq, or_false]
      rw [insertion_keeps valid id]
      refine forall_congr' fun n => imp_congr_right fun entry => ?_
      rw [entry_alike same, entry_insert (valid.known entry).1]
    · simp only [Users.Spares, Users.Ends, giving, Task.opening.injEq, Opening.giveUp.injEq]
      rw [removal_keeps valid _ k]
      refine forall_congr' fun n => imp_congr_right fun entry => ?_
      rw [entry_alike same, entry_remove]
    · simp only [Users.Spares, Users.Ends]
      rw [removal_keeps valid _ k]
      refine forall_congr' fun n => imp_congr_right fun entry => ?_
      rw [entry_alike same, entry_remove]

theorem users_wired (wired : Wired u.session) (stepped : u.step act = some next) :
    Wired next.session := by
  have valid := users_valid wired.valid stepped
  cases act with
  | link act =>
    obtain ⟨session, did, rfl⟩ := Option.map_eq_some_iff.mp stepped
    exact wired_step wired did
  | task name act =>
    obtain ⟨⟨session, task⟩, did, rfl⟩ := Option.map_eq_some_iff.mp stepped
    exact wired.quiet (quiet_taskStep did) valid

/-- An open that is to announce a stream has just inserted it, and one that
gives a stream up was to announce it. -/
private theorem taskStep_announces (stepped : s.taskStep task act = some (t, task'))
    (later : task' = .opening (.announce n) ∨ task' = .opening (.giveUp n)) :
    (task = .opening (.announce n) ∧ t.created = s.created) ∨
      (n = s.created ∧ t.created = s.created + 1) := by
  unfold Session.taskStep at stepped
  split at stepped
  · cases task with
    | idle => cases stepped
    | opening stage =>
      obtain ⟨⟨mid, next⟩, opened, same⟩ := Option.map_eq_some_iff.mp stepped
      cases same
      cases stage with
      | reserve =>
        simp only [Session.openStep] at opened
        split at opened <;> cases opened <;> simp at later
      | insert id =>
        cases opened
        simp only [Task.opening.injEq, Opening.announce.injEq, reduceCtorEq, or_false] at later
        exact .inr ⟨later.symm, rfl⟩
      | announce k =>
        have created := (alike_sends opened).created
        obtain ⟨-, rfl⟩ | ⟨-, -, rfl⟩ := sends_cases opened
        · simp at later
        · simp only [Task.opening.injEq, reduceCtorEq, Opening.giveUp.injEq, false_or] at later
          subst later
          exact .inl ⟨rfl, created⟩
      | allocate =>
        cases opened
        simp at later
      | giveUp k =>
        cases opened
        simp at later
      | refused => cases opened
      | opened k => cases opened
    | sending k stage =>
      obtain ⟨⟨mid, next⟩, -, same⟩ := Option.map_eq_some_iff.mp stepped
      cases same
      simp at later
    | granting k bytes => obtain ⟨-, rfl⟩ | ⟨-, -, rfl⟩ := sends_cases stepped <;> simp at later
    | closing id => obtain ⟨-, rfl⟩ | ⟨-, -, rfl⟩ := sends_cases stepped <;> simp at later
  · obtain ⟨-, begun⟩ := Option.ite_none_right_eq_some.mp stepped
    cases act with
    | tryOpen =>
      cases begun
      simp at later
    | proceed => cases begun
    | closeStream k sent =>
      obtain ⟨-, got⟩ := Option.ite_none_right_eq_some.mp begun
      obtain ⟨mid, -, same⟩ := Option.map_eq_some_iff.mp got
      cases same
      simp at later
    | flushCredit k bytes sent =>
      obtain ⟨-, got⟩ := Option.ite_none_right_eq_some.mp begun
      obtain ⟨mid, -, same⟩ := Option.map_eq_some_iff.mp got
      cases same
      simp at later
    | recv k =>
      obtain ⟨-, got⟩ := Option.ite_none_right_eq_some.mp begun
      obtain ⟨⟨chunk, mid⟩, -, same⟩ := Option.map_eq_some_iff.mp got
      cases same
      simp at later
    | _ =>
      obtain ⟨-, same⟩ := Option.ite_none_right_eq_some.mp begun
      cases same
      simp at later

/-- A new stream whose id is new leaves ids apart. -/
private theorem apart_insert (apart : ∀ n k, n < s.created → k < s.created →
      (s.arena n).id = (s.arena k).id → n = k) {id : UInt32}
    (new : ∀ n < s.created, (s.arena n).id ≠ id) (n k : Nat) (first : n < s.created + 1)
    (second : k < s.created + 1)
    (same : ((s.insert id).arena n).id = ((s.insert id).arena k).id) : n = k := by
  have last : ((s.insert id).arena s.created).id = id := by simp [Session.insert]
  obtain older | rfl := Nat.lt_succ_iff_lt_or_eq.mp first <;>
    obtain newer | rfl := Nat.lt_succ_iff_lt_or_eq.mp second
  · rw [arena_insert s id older, arena_insert s id newer] at same
    exact apart n k older newer same
  · rw [arena_insert s id older, last] at same
    exact absurd same (new n older)
  · rw [arena_insert s id newer, last] at same
    exact absurd same.symm (new k newer)
  · rfl

theorem Users.Owned.step (owned : u.Owned) (new : u.NewIds act) (stepped : u.step act = some next) :
    next.Owned := by
  cases act with
  | link act =>
    obtain ⟨session, did, rfl⟩ := Option.map_eq_some_iff.mp stepped
    refine ⟨wired_step owned.wired did, ?_, fun name n later =>
      Nat.lt_of_lt_of_le (owned.announced name n later) (step_created did)⟩
    by_cases admits : ∃ id, act = .advance ∧ u.session.reader = .accepting id
    · obtain ⟨id, rfl, reading⟩ := admits
      have fresh := new id (by simp [Users.inserts, Session.detaches, reading])
      obtain ⟨-, others⟩ | ⟨-, others, -⟩ | ⟨others, -⟩ | ⟨other, -, same, alike⟩ := step_map did
      · exact absurd ⟨rfl, id, reading⟩ others
      · exact absurd ⟨rfl, id, reading⟩ others
      · exact absurd ⟨rfl, id, reading⟩ others
      · rw [reading] at same
        cases same
        intro n k first second
        dsimp only at first second ⊢
        rw [alike.created] at first second
        rw [alike.id, alike.id]
        exact apart_insert owned.apart fresh n k first second
    · have created : session.created = u.session.created := by
        obtain ⟨alike, -⟩ | ⟨other, -, alike⟩ | ⟨-, alike⟩ | ⟨id, did, reading, -⟩ := step_map did
        · exact alike.created
        · exact alike.created.trans (removeAndClose_created _ other)
        · exact alike.created
        · exact absurd ⟨id, did, reading⟩ admits
      intro n k first second same
      dsimp only at first second same
      rw [created] at first second
      rw [(step_named did first).1, (step_named did second).1] at same
      exact owned.apart n k first second same
  | task name act =>
    have valid := users_valid owned.wired.valid stepped
    obtain ⟨⟨session, task⟩, did, rfl⟩ := Option.map_eq_some_iff.mp stepped
    have quiet := quiet_taskStep did
    refine ⟨owned.wired.quiet quiet valid, ?_, fun other n later => ?_⟩
    · obtain ⟨created, -, named, -⟩ | ⟨-, -, rfl, -⟩ | ⟨id, rfl, holding, rfl, -⟩ := taskStep_draws did
      · intro n k first second same
        dsimp only at first second same
        rw [created] at first second
        rw [named, named] at same
        exact owned.apart n k first second same
      · exact owned.apart
      · exact apart_insert owned.apart (new id (by simp [Users.inserts, holding]))
    · by_cases same : other = name
      · subst same
        simp only [Function.update_self] at later
        obtain ⟨before, created⟩ | ⟨rfl, created⟩ := taskStep_announces did later
        · exact Nat.lt_of_lt_of_le (owned.announced other n (.inl before)) (Nat.le_of_eq created.symm)
        · exact Nat.lt_of_lt_of_le (Nat.lt_succ_self _) (Nat.le_of_eq created.symm)
      · simp only [Function.update_of_ne same] at later
        exact Nat.lt_of_lt_of_le (owned.announced other n later) quiet.created

theorem Users.Owned.start (maxStreams : Nat) (onOpen : Bool) :
    ({ session := .start maxStreams onOpen } : Users).Owned := by
  refine ⟨wired_start maxStreams onOpen, fun n k known => ?_, fun name n later => ?_⟩
  · exact absurd known (Nat.not_lt_zero n)
  · obtain opening | opening := later <;> cases opening

/-- Where streams have ids of their own, nothing else is found under them. -/
theorem Users.Owned.spares (owned : u.Owned) (new : u.NewIds act) (stepped : u.step act = some next) :
    u.Spares act := by
  have valid := owned.wired.valid
  -- Whatever is under the id of a stream is that stream.
  have mine {n : Nat} (known : n < u.session.created) :
      ∀ k ∈ u.session.streams (u.session.arena n).id, k = n := by
    intro k found
    obtain ⟨older, named⟩ := valid.known found
    exact owned.apart k n older known named
  have free {id : UInt32} (inserted : id ∈ u.inserts act) : u.session.streams id = none := by
    rw [Option.eq_none_iff_forall_ne_some]
    intro n found
    obtain ⟨known, named⟩ := valid.known found
    exact new id inserted n known named
  cases act with
  | link act =>
    cases act with
    | advance =>
      simp only [Users.Spares, Session.Spares]
      split
      · rename_i id reading
        exact free (by simp [Users.inserts, Session.detaches, reading])
      · rename_i id n reading
        obtain ⟨known, named⟩ := owned.wired.overflows id n reading
        exact named ▸ mine known
      · trivial
    | _ => trivial
  | task name act =>
    obtain ⟨⟨session, task⟩, did, rfl⟩ := Option.map_eq_some_iff.mp stepped
    have known := taskStep_known did
    cases act with
    | proceed =>
      simp only [Users.Spares]
      split
      · rename_i id holding
        exact free (by simp [Users.inserts, holding])
      · rename_i n giving
        exact mine (owned.announced name n (.inr giving))
      · trivial
    | close n => exact mine known
    | closeStream n sent => exact mine known
    | _ => trivial

/-- A stream stays the entry for its id until the peer closes it, it overflows,
one of its own handles closes it or the link is torn down: in a run this holds
of every stream exactly if no insert, close or eviction by id ever finds another
stream there, and it holds if each stream, opened here or by the peer, gets an
id that is new on the link. -/
theorem streams_keep_their_entries (maxStreams : Nat) (onOpen : Bool) (actions : List UsersAct)
    {u : Users} (ran : run Users.step { session := .start maxStreams onOpen } actions = some u) :
    (Meets Users.step Users.Keeps { session := .start maxStreams onOpen } actions ↔
      Meets Users.step Users.Spares { session := .start maxStreams onOpen } actions) ∧
    (Meets Users.step Users.NewIds { session := .start maxStreams onOpen } actions →
      Meets Users.step Users.Keeps { session := .start maxStreams onOpen } actions) := by
  have permitted : Meets Users.step (fun _ _ => True) { session := .start maxStreams onOpen } actions :=
    meets_of_mem fun _ _ _ => trivial
  constructor
  · apply meets_iff_where (fun u => Wired u.session) _ _ (wired_start maxStreams onOpen) permitted ran
    · intro u act next wired _ stepped
      exact users_wired wired stepped
    · intro u act next wired _ stepped
      exact (users_keep wired stepped).symm
  · refine Meets.imp_where Users.Owned ?_ ?_ (.start maxStreams onOpen) ran
    · exact fun u act next owned new stepped => owned.step new stepped
    · exact fun u act next owned new stepped =>
        (users_keep owned.wired stepped).mp (owned.spares new stepped)

/-- Stream 1 is open, and the peer sends an OPEN of its own. -/
private def peerOpens (id : UInt8) : List UsersAct :=
  [.task 0 .tryOpen, .task 0 .proceed, .task 0 .proceed, .task 0 .proceed, .task 0 .proceed,
    .link (.recv [0, 0, 0, id, 0, 0, 0, 0])]

/-- A peer's OPEN with the id of a live stream puts its own in that one's place. -/
theorem peer_open_displaces :
    ∃ actions u, run Users.step { session := .start 2 false } actions = some u ∧
      ¬ Meets Users.step Users.Keeps { session := .start 2 false } actions := by
  have reached : ((run Users.step { session := .start 2 false } (peerOpens 1)).any fun u =>
      u.session.reader = .accepting 1 ∧ u.session.streams 1 = some 0 ∧ (u.session.arena 0).id = 1 ∧
      ((u.step (.link .advance)).any fun next =>
        next.session.streams 1 = some 1 ∧ (next.session.arena 0).id = 1)) = true := by decide +kernel
  obtain ⟨mid, before, holds⟩ := run_reaches reached
  obtain ⟨reading, entry, named, after⟩ := holds
  obtain ⟨u, stepped, ends⟩ := (Option.any_eq_true _ _).mp after
  simp only [decide_eq_true_eq] at ends
  refine ⟨peerOpens 1 ++ [.link .advance], u,
    run_append.mpr ⟨mid, before, run_cons.mpr ⟨u, stepped, rfl⟩⟩, fun keeps => ?_⟩
  obtain still | dying | ⟨id, finished⟩ := keeps.of_append before u stepped 0 (by rw [Session.Entry, named, entry])
  · rw [Session.Entry, ends.2, ends.1] at still
    cases still
  · rw [reading] at dying
    cases dying
  · rw [reading] at finished
    cases finished

/-- A peer's OPEN with an id of its own is harmless. -/
theorem streams_keep_their_entries_beside :
    Meets Users.step Users.Keeps { session := .start 2 false } (peerOpens 9 ++ [.link .advance]) := by
  have checked : (run Users.step { session := .start 2 false } (peerOpens 9 ++ [.link .advance])).isSome ∧
      Meets Users.step Users.NewIds { session := .start 2 false } (peerOpens 9 ++ [.link .advance]) := by
    decide +kernel
  obtain ⟨u, ran⟩ := Option.isSome_iff_exists.mp checked.1
  exact (streams_keep_their_entries 2 false _ ran).2 checked.2

end DshProxy.Mux

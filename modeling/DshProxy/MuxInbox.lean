import DshProxy.MuxUsers

/-! What `read_loop` puts into the inboxes. A stream that is in the map has been
offered, in order and without a gap, every DATA payload read on its id since it
was inserted; a stream that has left it keeps a front part of them. Nothing a
user of the session does can change that, so the invariant is stated for the
session alone. -/
namespace DshProxy.Mux
open Sync Wire

/-- The DATA payloads among the frames with one id, in order. -/
def dataOn (id : UInt32) (frames : List Frame) : List Bytes :=
  frames.filterMap fun frame => if frame.id = id ∧ frame.kind = .data then some frame.payload else none

theorem dataOn_append (id : UInt32) (first second : List Frame) :
    dataOn id (first ++ second) = dataOn id first ++ dataOn id second :=
  List.filterMap_append

theorem dataOn_singleton (id : UInt32) (frame : Frame) :
    dataOn id [frame] = if frame.id = id ∧ frame.kind = .data then [frame.payload] else [] := by
  unfold dataOn
  split <;> simp_all

/-- The payload the reader is about to offer to a stream. -/
def Reader.offered (stream : Nat) : Reader → List Bytes
  | .offer _ aim body => if aim = stream then [body] else []
  | _ => []

/-- The reader is about to remove the stream because its inbox was full. -/
def Reader.Lost (stream : Nat) (r : Reader) : Prop := ∃ id, r = .overflow id stream

/-- DATA payloads read on a stream's id since it was inserted. -/
def Session.heard (s : Session) (stream : Nat) : List Bytes :=
  dataOn (s.arena stream).id (s.log.drop (s.arena stream).since)

/-- How a stream's inbox stands to the DATA frames read for it. -/
structure Fed (s : Session) (n : Nat) : Prop where
  since : (s.arena n).since ≤ s.log.length
  front : (s.arena n).inbox.accepted <+: s.heard n
  offered : (s.arena n).inbox.isOpen = true →
    (s.arena n).inbox.accepted ++ s.reader.offered n <+: s.heard n
  complete : (s.arena n).inbox.isOpen = true → (s.arena n).id ≠ 0 →
    s.streams (s.arena n).id = some n → ¬ s.reader.Lost n →
      (s.arena n).inbox.accepted ++ s.reader.offered n = s.heard n

/-- The session invariant: a sound map, a reader that aims at streams under
their own ids, and inboxes fed as above. -/
structure Wired (s : Session) : Prop where
  valid : Valid s
  offers : ∀ id n body, s.reader = .offer id n body → n < s.created ∧ (s.arena n).id = id
  overflows : ∀ id n, s.reader = .overflow id n → n < s.created ∧ (s.arena n).id = id
  fed : ∀ n < s.created, Fed s n

/-- A step that neither reads a frame nor moves the reader: inboxes lose their
receiver or their place in the map at most, and new streams start empty. -/
structure Quiet (s t : Session) : Prop where
  log : t.log = s.log
  reader : t.reader = s.reader
  created : s.created ≤ t.created
  id : ∀ n < s.created, (t.arena n).id = (s.arena n).id
  since : ∀ n < s.created, (t.arena n).since = (s.arena n).since
  accepted : ∀ n < s.created, (t.arena n).inbox.accepted = (s.arena n).inbox.accepted
  isOpen : ∀ n < s.created, (t.arena n).inbox.isOpen = true → (s.arena n).inbox.isOpen = true
  streams : ∀ n < s.created, t.streams (s.arena n).id = some n → s.streams (s.arena n).id = some n
  fresh : ∀ n, s.created ≤ n → n < t.created →
    (t.arena n).since = s.log.length ∧ (t.arena n).inbox.accepted = []

variable {s t u : Session}

theorem Quiet.refl (s : Session) : Quiet s s :=
  ⟨rfl, rfl, Nat.le_refl _, fun _ _ => rfl, fun _ _ => rfl, fun _ _ => rfl, fun _ _ opened => opened,
    fun _ _ found => found, fun n older newer => by omega⟩

theorem Quiet.trans (first : Quiet s t) (second : Quiet t u) : Quiet s u := by
  have within {n} (known : n < s.created) : n < t.created := Nat.lt_of_lt_of_le known first.created
  refine ⟨second.log.trans first.log, second.reader.trans first.reader,
    Nat.le_trans first.created second.created, ?_, ?_, ?_, ?_, ?_, ?_⟩
  · intro n known
    exact (second.id n (within known)).trans (first.id n known)
  · intro n known
    exact (second.since n (within known)).trans (first.since n known)
  · intro n known
    exact (second.accepted n (within known)).trans (first.accepted n known)
  · intro n known opened
    exact first.isOpen n known (second.isOpen n (within known) opened)
  · intro n known found
    rw [← first.id n known] at found
    have found := second.streams n (within known) found
    rw [first.id n known] at found
    exact first.streams n known found
  · intro n older newer
    by_cases known : n < t.created
    · rw [second.since n known, second.accepted n known]
      exact first.fresh n older known
    · rw [← first.log]
      exact second.fresh n (by omega) newer

/-- Same map, arena, log and reader. -/
theorem Quiet.of_eq (log : t.log = s.log) (reader : t.reader = s.reader)
    (created : t.created = s.created) (arena : t.arena = s.arena) (streams : t.streams = s.streams) :
    Quiet s t := by
  refine ⟨log, reader, Nat.le_of_eq created.symm, ?_, ?_, ?_, ?_, ?_, ?_⟩
  · intro n _
    rw [arena]
  · intro n _
    rw [arena]
  · intro n _
    rw [arena]
  · intro n _ opened
    rwa [arena] at opened
  · intro n _ found
    rwa [streams] at found
  · intro n older newer
    omega

theorem quiet_modify (s : Session) (stream : Nat) (change : Stream → Stream)
    (id : (change (s.arena stream)).id = (s.arena stream).id)
    (since : (change (s.arena stream)).since = (s.arena stream).since)
    (accepted : (change (s.arena stream)).inbox.accepted = (s.arena stream).inbox.accepted)
    (isOpen : (change (s.arena stream)).inbox.isOpen = true → (s.arena stream).inbox.isOpen = true) :
    Quiet s (s.modify stream change) := by
  have stage (n : Nat) : (s.modify stream change).arena n =
      if n = stream then change (s.arena stream) else s.arena n := by
    simp only [Session.modify, Function.update_apply]
  refine ⟨rfl, rfl, Nat.le_refl _, ?_, ?_, ?_, ?_, fun _ _ found => found, fun n older newer => ?_⟩
  · intro n _
    rw [stage]
    split <;> simp_all
  · intro n _
    rw [stage]
    split <;> simp_all
  · intro n _
    rw [stage]
    split <;> simp_all
  · intro n _
    rw [stage]
    split <;> simp_all
  · exact absurd newer (Nat.not_lt_of_le older)

theorem quiet_remove (s : Session) (id : UInt32) : Quiet s (s.remove id) := by
  unfold Session.remove
  split
  · exact Quiet.refl s
  · refine ⟨rfl, rfl, Nat.le_refl _, fun _ _ => rfl, fun _ _ => rfl, fun _ _ => rfl,
      fun _ _ opened => opened, fun n _ found => ?_, fun n older newer => ?_⟩
    · dsimp only at found
      rw [Function.update_apply] at found
      split at found
      · cases found
      · exact found
    · exact absurd newer (Nat.not_lt_of_le older)

theorem quiet_closeGate (s : Session) (stream : Nat) : Quiet s (s.closeGate stream) :=
  quiet_modify s stream _ rfl rfl rfl fun opened => opened

theorem quiet_removeAndClose (s : Session) (id : UInt32) : Quiet s (s.removeAndClose id) := by
  unfold Session.removeAndClose
  split
  · exact Quiet.refl s
  · exact (quiet_remove s id).trans (quiet_closeGate _ _)

theorem quiet_insert (s : Session) (id : UInt32) : Quiet s (s.insert id) := by
  have older {n : Nat} (known : n < s.created) : (s.insert id).arena n = s.arena n := by
    simp [Session.insert, Nat.ne_of_lt known]
  refine ⟨rfl, rfl, Nat.le_succ _, ?_, ?_, ?_, ?_, ?_, ?_⟩
  · intro n known
    rw [older known]
  · intro n known
    rw [older known]
  · intro n known
    rw [older known]
  · intro n known opened
    rwa [older known] at opened
  · intro n known found
    simp only [Session.insert, Function.update_apply] at found
    split at found
    · cases found
      omega
    · exact found
  · intro n above below
    have new : n = s.created := by
      simp only [Session.insert] at below
      omega
    subst new
    simp [Session.insert]

theorem quiet_clear (s : Session) : Quiet s s.clear := by
  have stage (n : Nat) : (s.clear.arena n).id = (s.arena n).id ∧
      (s.clear.arena n).since = (s.arena n).since ∧ (s.clear.arena n).inbox = (s.arena n).inbox := by
    simp only [Session.clear]
    split <;> simp
  refine ⟨rfl, rfl, Nat.le_refl _, fun n _ => (stage n).1, fun n _ => (stage n).2.1, ?_, ?_, ?_, ?_⟩
  · intro n _
    rw [(stage n).2.2]
  · intro n _ opened
    rwa [(stage n).2.2] at opened
  · intro n _ found
    cases found
  · intro n above below
    exact absurd below (Nat.not_lt_of_le above)

theorem quiet_enqueue (queued : s.enqueue frame = some t) : Quiet s t := by
  obtain ⟨-, same⟩ := Option.ite_none_right_eq_some.mp queued
  cases same
  exact .of_eq rfl rfl rfl rfl rfl

theorem quiet_sends {ok error res : β} (sent : s.sends frame ok error = some (t, res)) :
    Quiet s t := by
  unfold Session.sends at sent
  split at sent
  · obtain ⟨mid, queued, same⟩ := Option.map_eq_some_iff.mp sent
    cases same
    exact quiet_enqueue queued
  · cases sent
    exact Quiet.refl s

theorem quiet_trySends (tried : s.trySends frame sent = some t) : Quiet s t := by
  unfold Session.trySends at tried
  split at tried
  · exact quiet_enqueue tried
  · cases tried
    exact Quiet.refl s

theorem quiet_hangUp (s : Session) (stream : Nat) : Quiet s (s.hangUp stream) :=
  quiet_modify s stream _ rfl rfl rfl (by simp)

theorem quiet_take (took : s.take stream = some (chunk, t)) : Quiet s t := by
  obtain ⟨⟨first, inbox⟩, got, same⟩ := Option.map_eq_some_iff.mp took
  obtain ⟨rfl, -⟩ := Channel.recv_eq_some _ got
  cases same
  exact quiet_modify s stream _ rfl rfl rfl fun opened => opened

theorem quiet_sendStep (stepped : s.sendStep stream stage = some (t, next)) : Quiet s t := by
  cases stage with
  | acquire rest =>
    simp only [Session.sendStep] at stepped
    split at stepped
    · cases stepped
      exact Quiet.refl s
    · obtain ⟨credit, -, same⟩ := Option.map_eq_some_iff.mp stepped
      cases same
      exact quiet_modify s stream _ rfl rfl rfl fun opened => opened
  | queue chunk rest => exact quiet_sends stepped
  | sent => cases stepped
  | broken => cases stepped

theorem quiet_reserve (reserved : s.reserve = some t) : Quiet s t := by
  obtain ⟨-, same⟩ := Option.ite_none_left_eq_some.mp reserved
  cases same
  exact .of_eq rfl rfl rfl rfl rfl

theorem quiet_openStep (stepped : s.openStep stage = some (t, next)) : Quiet s t := by
  cases stage with
  | reserve =>
    simp only [Session.openStep] at stepped
    split at stepped
    · rename_i reserved
      cases stepped
      exact quiet_reserve reserved
    · cases stepped
      exact Quiet.refl s
  | allocate =>
    cases stepped
    exact .of_eq rfl rfl rfl rfl rfl
  | insert id =>
    cases stepped
    exact quiet_insert s id
  | announce stream => exact quiet_sends stepped
  | giveUp stream =>
    cases stepped
    exact (quiet_remove s _).trans (quiet_hangUp _ stream)
  | refused => cases stepped
  | opened stream => cases stepped

private theorem quiet_begin (begun : s.begin act = some (t, task)) : Quiet s t := by
  cases act with
  | tryOpen =>
    cases begun
    exact .refl s
  | proceed => cases begun
  | close n =>
    obtain ⟨-, same⟩ := Option.ite_none_right_eq_some.mp begun
    cases same
    exact quiet_remove s _
  | closeStream n sent =>
    obtain ⟨-, got⟩ := Option.ite_none_right_eq_some.mp begun
    obtain ⟨mid, tried, same⟩ := Option.map_eq_some_iff.mp got
    cases same
    exact (quiet_removeAndClose s _).trans (quiet_trySends tried)
  | flushCredit n bytes sent =>
    obtain ⟨-, got⟩ := Option.ite_none_right_eq_some.mp begun
    obtain ⟨mid, tried, same⟩ := Option.map_eq_some_iff.mp got
    cases same
    exact quiet_trySends tried
  | recv n =>
    obtain ⟨-, got⟩ := Option.ite_none_right_eq_some.mp begun
    obtain ⟨⟨chunk, mid⟩, took, same⟩ := Option.map_eq_some_iff.mp got
    cases same
    exact quiet_take took
  | hangUp n =>
    obtain ⟨-, same⟩ := Option.ite_none_right_eq_some.mp begun
    cases same
    exact quiet_hangUp s n
  | _ =>
    obtain ⟨-, same⟩ := Option.ite_none_right_eq_some.mp begun
    cases same
    exact .refl s

/-- Nothing a user of the session does reads a frame or moves the reader. -/
theorem quiet_taskStep (stepped : s.taskStep task act = some (t, task')) : Quiet s t := by
  unfold Session.taskStep at stepped
  split at stepped
  · cases task with
    | idle => cases stepped
    | opening stage =>
      obtain ⟨⟨mid, next⟩, opened, same⟩ := Option.map_eq_some_iff.mp stepped
      cases same
      exact quiet_openStep opened
    | sending n stage =>
      obtain ⟨⟨mid, next⟩, sent, same⟩ := Option.map_eq_some_iff.mp stepped
      cases same
      exact quiet_sendStep sent
    | granting n bytes => exact quiet_sends stepped
    | closing id => exact quiet_sends stepped
  · exact quiet_begin (Option.ite_none_right_eq_some.mp stepped).2

theorem Quiet.heard (quiet : Quiet s t) (known : n < s.created) : t.heard n = s.heard n := by
  unfold Session.heard
  rw [quiet.log, quiet.id n known, quiet.since n known]

theorem Fed.quiet (fed : Fed s n) (quiet : Quiet s t) (known : n < s.created) : Fed t n := by
  refine ⟨?_, ?_, ?_, ?_⟩
  · rw [quiet.since n known, quiet.log]
    exact fed.since
  · rw [quiet.accepted n known, quiet.heard known]
    exact fed.front
  · intro opened
    rw [quiet.accepted n known, quiet.heard known, quiet.reader]
    exact fed.offered (quiet.isOpen n known opened)
  · intro opened named found kept
    rw [quiet.id n known] at named found
    rw [quiet.reader] at kept
    rw [quiet.accepted n known, quiet.heard known, quiet.reader]
    exact fed.complete (quiet.isOpen n known opened) named (quiet.streams n known found) kept

/-- The reader aims at no stream that does not exist yet. -/
theorem Wired.offered_fresh (wired : Wired s) (fresh : s.created ≤ n) : s.reader.offered n = [] := by
  unfold Reader.offered
  split
  · rename_i id aim body reading
    have known := (wired.offers id aim body reading).1
    rw [if_neg (by omega)]
  · rfl

/-- Nothing that leaves the reader and the log alone can break the invariant. -/
theorem Wired.quiet (wired : Wired s) (quiet : Quiet s t) (valid : Valid t) : Wired t := by
  refine ⟨valid, ?_, ?_, ?_⟩
  · intro id n body reading
    rw [quiet.reader] at reading
    obtain ⟨known, named⟩ := wired.offers id n body reading
    exact ⟨Nat.lt_of_lt_of_le known quiet.created, (quiet.id n known).trans named⟩
  · intro id n reading
    rw [quiet.reader] at reading
    obtain ⟨known, named⟩ := wired.overflows id n reading
    exact ⟨Nat.lt_of_lt_of_le known quiet.created, (quiet.id n known).trans named⟩
  · intro n within
    by_cases known : n < s.created
    · exact (wired.fed n known).quiet quiet known
    · obtain ⟨since, accepted⟩ := quiet.fresh n (by omega) within
      have nothing : t.heard n = [] := by
        simp [Session.heard, since, quiet.log, dataOn]
      have silent : t.reader.offered n = [] := by
        rw [quiet.reader]
        exact wired.offered_fresh (by omega)
      refine ⟨by rw [since, quiet.log], ?_, fun _ => ?_, fun _ _ _ _ => ?_⟩
      · rw [accepted]
        exact List.nil_prefix
      · rw [accepted, silent]
        exact List.nil_prefix
      · rw [accepted, silent, nothing]
        rfl

/-- The reader is at a place where no payload is in its hands. -/
def Reader.Plain : Reader → Prop
  | .offer _ _ _ | .overflow _ _ => False
  | _ => True

theorem Reader.Plain.offered {r : Reader} (plain : r.Plain) (n : Nat) : r.offered n = [] := by
  cases r <;> first
    | rfl
    | exact plain.elim

theorem Reader.Plain.not_lost {r : Reader} (plain : r.Plain) (n : Nat) : ¬ r.Lost n := by
  rintro ⟨id, rfl⟩
  exact plain

theorem Reader.Plain.of_replies {r : Reader} (replies : r.replies = some frame) : r.Plain := by
  cases r <;> trivial

/-- A reader with empty hands may go to any place where they are empty too. -/
theorem Wired.goes (wired : Wired s) {r : Reader} (was : s.reader.Plain) (plain : r.Plain) :
    Wired { s with reader := r } := by
  refine ⟨⟨wired.valid.known, wired.valid.gate⟩, ?_, ?_, ?_⟩
  · rintro id n body rfl
    exact plain.elim
  · rintro id n rfl
    exact plain.elim
  · intro n known
    have fed := wired.fed n known
    refine ⟨fed.since, fed.front, fun opened => ?_, fun opened named found _ => ?_⟩
    · have offered := fed.offered opened
      rw [was.offered, ← plain.offered n] at offered
      exact offered
    · have complete := fed.complete opened named found (was.not_lost n)
      rw [was.offered, ← plain.offered n] at complete
      exact complete

private theorem heard_snoc (fed : Fed s n) (frame : Frame) (r : Reader) :
    ({ s with log := s.log ++ [frame], reader := r } : Session).heard n =
      s.heard n ++ if frame.id = (s.arena n).id ∧ frame.kind = .data then [frame.payload] else [] := by
  unfold Session.heard
  dsimp only
  rw [List.drop_append_of_le_length fed.since, dataOn_append, dataOn_singleton]

/-- A frame that is not for any stream's inbox is read. -/
theorem Wired.skips (wired : Wired s) (frame : Frame) {r : Reader} (was : s.reader.Plain)
    (plain : r.Plain)
    (aside : frame.id = 0 ∨ frame.kind ≠ .data ∨ s.streams frame.id = none) :
    Wired { s with log := s.log ++ [frame], reader := r } := by
  refine ⟨⟨wired.valid.known, wired.valid.gate⟩, ?_, ?_, ?_⟩
  · rintro id n body rfl
    exact plain.elim
  · rintro id n rfl
    exact plain.elim
  · intro n known
    have fed := wired.fed n known
    have more := heard_snoc fed frame r
    refine ⟨?_, ?_, fun opened => ?_, fun opened named found _ => ?_⟩
    · rw [List.length_append]
      exact Nat.le_trans fed.since (Nat.le_add_right _ _)
    · rw [more]
      exact fed.front.trans (List.prefix_append _ _)
    · have offered := fed.offered opened
      rw [was.offered] at offered
      rw [more, plain.offered]
      exact offered.trans (List.prefix_append _ _)
    · have complete := fed.complete opened named found (was.not_lost n)
      rw [was.offered] at complete
      have unmoved : ¬ (frame.id = (s.arena n).id ∧ frame.kind = .data) := by
        rintro ⟨same, data⟩
        obtain zero | other | absent := aside
        · exact named (same.symm.trans zero)
        · exact other data
        · rw [same, found] at absent
          cases absent
      simp only [more, plain.offered, if_neg unmoved, List.append_nil] at complete ⊢
      exact complete

/-- A DATA frame for a stream in the map is read and about to be offered. -/
theorem Wired.aims (wired : Wired s) (frame : Frame) (was : s.reader.Plain) (stream : frame.id ≠ 0)
    (data : frame.kind = .data) (found : s.streams frame.id = some aim) :
    Wired { s with log := s.log ++ [frame], reader := .offer frame.id aim frame.payload } := by
  obtain ⟨present, under⟩ := wired.valid.known found
  refine ⟨⟨wired.valid.known, wired.valid.gate⟩, ?_, ?_, ?_⟩
  · intro id n body reading
    cases reading
    exact ⟨present, under⟩
  · intro id n reading
    cases reading
  · intro n known
    have fed := wired.fed n known
    have more := heard_snoc fed frame (.offer frame.id aim frame.payload)
    have hit (same : aim = n) (opened : (s.arena n).inbox.isOpen = true) :
        (s.arena n).inbox.accepted ++ [frame.payload] = s.heard n ++ [frame.payload] := by
      subst same
      have complete := fed.complete opened (under ▸ stream) (under ▸ found) (was.not_lost aim)
      rw [was.offered, List.append_nil] at complete
      rw [complete]
    refine ⟨?_, ?_, fun opened => ?_, fun opened named inMap _ => ?_⟩
    · rw [List.length_append]
      exact Nat.le_trans fed.since (Nat.le_add_right _ _)
    · rw [more]
      exact fed.front.trans (List.prefix_append _ _)
    · have offered := fed.offered opened
      rw [was.offered, List.append_nil] at offered
      rw [more]
      by_cases same : aim = n
      · subst same
        simp only [Reader.offered, if_pos, under, data, and_self]
        exact (hit rfl opened) ▸ List.prefix_rfl
      · simp only [Reader.offered, if_neg same, List.append_nil]
        exact offered.trans (List.prefix_append _ _)
    · rw [more]
      by_cases same : aim = n
      · subst same
        simp only [Reader.offered, if_pos, under, data, and_self]
        exact hit rfl opened
      · have elsewhere : ¬ (frame.id = (s.arena n).id ∧ frame.kind = .data) := by
          rintro ⟨id, -⟩
          rw [← id] at inMap
          exact same (Option.some.inj (found.symm.trans inMap))
        simp only [Reader.offered, if_neg same, if_neg elsewhere]
        have complete := fed.complete opened named inMap (was.not_lost n)
        rwa [was.offered, List.append_nil, List.append_nil] at *

/-- The reader's hands are empty again, whatever became of the payload of a
stream whose inbox has no receiver. -/
theorem Wired.drops (wired : Wired s) {id : UInt32} (reading : s.reader = .offer id aim body)
    (closed : (s.arena aim).inbox.isOpen = false) : Wired { s with reader := .idle } := by
  refine ⟨⟨wired.valid.known, wired.valid.gate⟩, by simp, by simp, fun n known => ?_⟩
  have fed := wired.fed n known
  by_cases same : n = aim
  · subst same
    refine ⟨fed.since, fed.front, fun opened => ?_, fun opened _ _ _ => ?_⟩
    · exact absurd (closed.symm.trans opened) (by simp)
    · exact absurd (closed.symm.trans opened) (by simp)
  · have nothing : s.reader.offered n = [] := by
      simp [reading, Reader.offered, Ne.symm same]
    refine ⟨fed.since, fed.front, fun opened => ?_, fun opened named found _ => ?_⟩
    · have offered := fed.offered opened
      rw [nothing] at offered
      exact offered
    · have complete := fed.complete opened named found (by simp [Reader.Lost, reading])
      rw [nothing] at complete
      exact complete

/-- The inbox is full; the reader is about to remove the stream. -/
theorem Wired.overruns (wired : Wired s) {id : UInt32} (reading : s.reader = .offer id aim body) :
    Wired { s with reader := .overflow id aim } := by
  refine ⟨⟨wired.valid.known, wired.valid.gate⟩, by simp, ?_, fun n known => ?_⟩
  · intro id n finished
    cases finished
    exact wired.offers _ _ _ reading
  · have fed := wired.fed n known
    refine ⟨fed.since, fed.front, fun opened => ?_, fun opened named found kept => ?_⟩
    · exact (List.append_nil _).symm ▸ fed.front
    · have other : aim ≠ n := fun same => kept ⟨id, by rw [same]⟩
      have complete := fed.complete opened named found (by simp [Reader.Lost, reading])
      have nothing : s.reader.offered n = [] := by simp [reading, Reader.offered, other]
      rw [nothing] at complete
      exact complete

theorem removeAndClose_absent (s : Session) (id : UInt32) : (s.removeAndClose id).streams id = none := by
  unfold Session.removeAndClose
  split
  · assumption
  · rename_i found
    simp [Session.closeGate, Session.modify, Session.remove, found]

/-- The stream is out of the map; the reader goes on to say so. -/
theorem Wired.evicts (wired : Wired s) {id : UInt32} (reading : s.reader = .overflow id aim)
    (absent : s.streams id = none) {r : Reader} (plain : r.Plain) : Wired { s with reader := r } := by
  refine ⟨⟨wired.valid.known, wired.valid.gate⟩, ?_, ?_, fun n known => ?_⟩
  · rintro id n body rfl
    exact plain.elim
  · rintro id n rfl
    exact plain.elim
  · have fed := wired.fed n known
    have nothing : s.reader.offered n = [] := by simp [reading, Reader.offered]
    refine ⟨fed.since, fed.front, fun opened => ?_, fun opened named found _ => ?_⟩
    · have offered := fed.offered opened
      rw [nothing, ← plain.offered n] at offered
      exact offered
    · have kept : ¬ s.reader.Lost n := by
        rintro ⟨other, lost⟩
        obtain ⟨-, rfl⟩ : id = other ∧ aim = n := by simpa [reading] using lost
        have under := (wired.overflows id aim reading).2
        have found : s.streams (s.arena aim).id = some aim := found
        rw [under, absent] at found
        cases found
      have complete := fed.complete opened named found kept
      rw [nothing, ← plain.offered n] at complete
      exact complete

/-- The inbox takes the payload. -/
theorem Wired.accepts (wired : Wired s) {id : UInt32} (reading : s.reader = .offer id aim body)
    (opened : (s.arena aim).inbox.isOpen = true) (valid : Valid t)
    (pushed : t = { s.modify aim fun st => { st with inbox := (s.arena aim).inbox.push body } with
      reader := .idle }) : Wired t := by
  subst pushed
  refine ⟨valid, by simp, by simp, fun n known => ?_⟩
  have fed := wired.fed n known
  by_cases same : n = aim
  · subst same
    have offered : s.reader.offered n = [body] := by simp [reading, Reader.offered]
    have front := fed.offered opened
    rw [offered] at front
    have heard : ({ s.modify n fun st => { st with inbox := (s.arena n).inbox.push body } with
        reader := .idle } : Session).heard n = s.heard n := by
      simp [Session.heard, Session.modify]
    refine ⟨?_, ?_, fun _ => ?_, fun _ named found _ => ?_⟩
    · simpa [Session.modify] using fed.since
    · rw [heard]
      simpa [Session.modify] using front
    · rw [heard]
      simpa [Session.modify, Reader.offered] using front
    · have complete := fed.complete opened (by simpa [Session.modify] using named)
        (by simpa [Session.modify] using found) (by simp [Reader.Lost, reading])
      rw [offered] at complete
      rw [heard, ← complete]
      simp [Session.modify, Reader.offered]
  · have arena : ({ s.modify aim fun st => { st with inbox := (s.arena aim).inbox.push body } with
        reader := .idle } : Session).arena n = s.arena n := by
      simp [Session.modify, same]
    have heard : ({ s.modify aim fun st => { st with inbox := (s.arena aim).inbox.push body } with
        reader := .idle } : Session).heard n = s.heard n := by
      simp [Session.heard, Session.modify, same]
    have nothing : s.reader.offered n = [] := by simp [reading, Reader.offered, Ne.symm same]
    refine ⟨?_, ?_, fun opened => ?_, fun opened named found _ => ?_⟩
    · rw [arena]
      exact fed.since
    · rw [arena, heard]
      exact fed.front
    · rw [arena] at opened
      rw [arena, heard]
      have offered := fed.offered opened
      rw [nothing] at offered
      exact offered
    · rw [arena] at opened named found
      rw [arena, heard]
      have complete := fed.complete opened named found (by simp [Reader.Lost, reading])
      rw [nothing] at complete
      exact complete

/-- What a frame does at once keeps the invariant. -/
private theorem wired_heard (wired : Wired s) (idle : s.reader = .idle) (did : Heard s frame t) :
    Wired t := by
  have plain : s.reader.Plain := by simp [idle, Reader.Plain]
  have skipped (aside : frame.id = 0 ∨ frame.kind ≠ .data ∨ s.streams frame.id = none) :
      Wired { s with log := s.log ++ [frame] } := wired.skips frame plain plain aside
  cases did with
  | keepalive zero => exact wired.skips frame plain trivial (.inl zero)
  | opens _ kind =>
    have admitted := wired.skips frame (r := .accepting frame.id) plain trivial
      (.inr (.inl (by simp [kind])))
    exact admitted.quiet (.of_eq rfl rfl rfl rfl rfl) ⟨admitted.valid.known, admitted.valid.gate⟩
  | overBudget _ kind => exact wired.skips frame plain trivial (.inr (.inl (by simp [kind])))
  | data aim stream kind found => exact wired.aims frame plain stream kind found
  | grants aim _ kind =>
    have kept := skipped (.inr (.inl (by simp [kind])))
    exact kept.quiet (quiet_modify _ _ _ rfl rfl rfl fun opened => opened)
      (kept.valid.alike (alike_modify _ _ _ rfl rfl))
  | closes _ kind =>
    have kept := skipped (.inr (.inl (by simp [kind])))
    exact kept.quiet (quiet_removeAndClose _ _) (valid_removeAndClose kept.valid _)
  | ignores _ nothing =>
    apply skipped
    unfold Session.Ignores at nothing
    split at nothing <;> simp_all

/-- Every step of the link keeps the inboxes fed. -/
theorem wired_step (wired : Wired s) (stepped : s.step act = some t) : Wired t := by
  have valid := valid_step wired.valid stepped
  cases step_move stepped with
  | short plain idle => exact wired.goes (by simp [idle, Reader.Plain]) trivial
  | heard plain frame idle _ _ did => exact wired_heard wired idle did
  | lapse idle => exact wired.goes (by simp [idle, Reader.Plain]) trivial
  | admits id reading =>
    have waits : Wired { s with reader := .idle } :=
      wired.goes (by simp [reading, Reader.Plain]) trivial
    exact waits.quiet (quiet_insert _ id) (valid_insert waits.valid id)
  | admitsNobody id reading =>
    have waits : Wired { s with reader := .idle } :=
      wired.goes (by simp [reading, Reader.Plain]) trivial
    exact waits.quiet ((quiet_insert _ id).trans (quiet_hangUp _ s.created))
      ((valid_insert waits.valid id).alike (alike_hangUp _ s.created))
  | delivers id aim body reading opened => exact wired.accepts reading opened valid rfl
  | drops id aim body reading closed => exact wired.drops reading closed
  | overflows id aim body reading => exact wired.overruns reading
  | evicts id aim reading =>
    have gone := wired.quiet (quiet_removeAndClose s id) (valid_removeAndClose wired.valid id)
    exact gone.evicts ((quiet_removeAndClose s id).reader.trans reading) (removeAndClose_absent s id)
      trivial
  | dies reading =>
    have cleared := wired.quiet (quiet_clear s) (valid_clear s)
    exact cleared.goes (by simp [Session.clear, reading, Reader.Plain]) trivial
  | ends reading => exact wired.goes (by simp [reading, Reader.Plain]) trivial
  | replies frame reading did =>
    have kept := wired.quiet (quiet_enqueue did) (wired.valid.alike (alike_enqueue did))
    exact kept.goes (by rw [(quiet_enqueue did).reader]; exact .of_replies reading) trivial
  | replyFails frame reading => exact wired.goes (.of_replies reading) trivial
  | readerAborted plain =>
    obtain reading | ⟨frame, reading⟩ := plain.imp_right Option.isSome_iff_exists.mp
    · exact wired.goes (by simp [reading, Reader.Plain]) trivial
    · exact wired.goes (.of_replies reading) trivial
  | shutdownClear =>
    exact (wired.quiet (quiet_clear s) (valid_clear s)).quiet (.of_eq rfl rfl rfl rfl rfl) valid
  | _ => exact wired.quiet (.of_eq rfl rfl rfl rfl rfl) valid

theorem wired_start (maxStreams : Nat) (onOpen : Bool) : Wired (.start maxStreams onOpen) := by
  refine ⟨⟨?_, ?_⟩, ?_, ?_, ?_⟩
  · intro id n found
    cases found
  · intro id n found
    cases found
  · intro id n body reading
    cases reading
  · intro id n reading
    cases reading
  · intro n known
    exact absurd known (Nat.not_lt_zero n)

theorem enqueue_arena (queued : s.enqueue frame = some t) : t.arena = s.arena := by
  obtain ⟨-, pushed⟩ := Option.ite_none_right_eq_some.mp queued
  cases pushed
  rfl

theorem sends_arena {ok error res : β} (sent : s.sends frame ok error = some (t, res)) :
    t.arena = s.arena := by
  obtain ⟨queued, -⟩ | ⟨-, rfl, -⟩ := sends_cases sent
  · exact enqueue_arena queued
  · rfl

/-- Spending credit and queueing frames takes nothing out of an inbox. -/
theorem sendStep_inbox (stepped : s.sendStep stream stage = some (t, next)) (n : Nat) :
    (t.arena n).inbox = (s.arena n).inbox := by
  cases stage with
  | acquire rest =>
    simp only [Session.sendStep] at stepped
    split at stepped
    · cases stepped
      rfl
    · obtain ⟨credit, -, same⟩ := Option.map_eq_some_iff.mp stepped
      cases same
      exact modify_kept s Stream.inbox rfl n
  | queue chunk rest => rw [sends_arena stepped]
  | sent => cases stepped
  | broken => cases stepped

@[simp] theorem arena_remove (s : Session) (id : UInt32) : (s.remove id).arena = s.arena := by
  unfold Session.remove
  split <;> rfl

@[simp] theorem remove_streams (s : Session) (id other : UInt32) :
    (s.remove other).streams id = if id = other then none else s.streams id := by
  unfold Session.remove
  split
  · rename_i absent
    split
    · rename_i same
      rw [same, absent]
    · rfl
  · simp [Function.update_apply]

@[simp] theorem removeAndClose_streams (s : Session) (id other : UInt32) :
    (s.removeAndClose other).streams id = if id = other then none else s.streams id := by
  unfold Session.removeAndClose
  split
  · rename_i absent
    split
    · rename_i same
      rw [same, absent]
    · rfl
  · exact remove_streams s id other

@[simp] theorem remove_out (s : Session) (id : UInt32) : (s.remove id).out = s.out := by
  unfold Session.remove
  split <;> rfl

@[simp] theorem removeAndClose_out (s : Session) (id : UInt32) :
    (s.removeAndClose id).out = s.out := by
  unfold Session.removeAndClose
  split
  · rfl
  · exact remove_out s id

theorem Heard.out (did : Heard s frame u) : u.out = s.out := by
  cases did with
  | closes => exact removeAndClose_out _ _
  | _ => rfl

theorem take_out (took : s.take n = some (chunk, t)) : t.out = s.out := by
  obtain ⟨⟨first, inbox⟩, -, same⟩ := Option.map_eq_some_iff.mp took
  cases same
  rfl

theorem take_fed (took : s.take n = some (chunk, t)) : t.fed = s.fed := by
  obtain ⟨⟨first, inbox⟩, -, same⟩ := Option.map_eq_some_iff.mp took
  cases same
  rfl

@[simp] theorem inbox_closeGate (s : Session) (stream n : Nat) :
    ((s.closeGate stream).arena n).inbox = (s.arena n).inbox :=
  modify_kept s Stream.inbox rfl n

@[simp] theorem inbox_removeAndClose (s : Session) (id : UInt32) (n : Nat) :
    ((s.removeAndClose id).arena n).inbox = (s.arena n).inbox := by
  unfold Session.removeAndClose
  split
  · rfl
  · simp

@[simp] theorem id_removeAndClose (s : Session) (id : UInt32) (n : Nat) :
    ((s.removeAndClose id).arena n).id = (s.arena n).id := by
  unfold Session.removeAndClose
  split
  · rfl
  · rename_i stream _
    exact (modify_kept _ Stream.id rfl n).trans (by rw [arena_remove])

@[simp] theorem inbox_clear (s : Session) (n : Nat) :
    (s.clear.arena n).inbox = (s.arena n).inbox := by
  simp only [Session.clear]
  split <;> rfl

theorem arena_insert (s : Session) (id : UInt32) (known : n < s.created) :
    (s.insert id).arena n = s.arena n := by
  simp [Session.insert, Nat.ne_of_lt known]

/-- The only thing a link step puts into an inbox is the payload the reader
offers, where there is room. -/
theorem step_inbox (stepped : s.step act = some t) (known : n < s.created) :
    (t.arena n).inbox = (s.arena n).inbox ∨
      ∃ id body, act = .advance ∧ s.reader = .offer id n body ∧
        (s.arena n).inbox.isOpen = true ∧ (s.arena n).inbox.len < inboxFrames ∧
        (t.arena n).inbox = (s.arena n).inbox.push body := by
  cases step_move stepped with
  | heard plain frame _ _ _ did =>
    refine .inl ?_
    cases did with
    | grants aim => exact modify_kept { s with log := s.log ++ [frame] } Stream.inbox rfl n
    | closes => exact inbox_removeAndClose _ _ n
    | _ => rfl
  | admits id => exact .inl (by rw [show (_ : Session).arena n = _ from arena_insert s id known])
  | admitsNobody id =>
    have new : n ≠ s.created := Nat.ne_of_lt known
    refine .inl ?_
    simp [Session.modify, Session.insert, new]
  | delivers id stream body reading opened room =>
    by_cases same : n = stream
    · subst same
      exact .inr ⟨id, body, rfl, reading, opened, room, by simp [Session.modify]⟩
    · exact .inl (by rw [show (_ : Session).arena n = _ from arena_modify_other s _ same])
  | evicts id => exact .inl (inbox_removeAndClose s id n)
  | dies => exact .inl (inbox_clear s n)
  | replies frame _ did => exact .inl (by rw [show (_ : Session).arena = _ from enqueue_arena did])
  | shutdownClear => exact .inl (inbox_clear s n)
  | _ => exact .inl rfl

/-- A stream keeps its id and its place in the log. -/
theorem step_named (stepped : s.step act = some t) (known : n < s.created) :
    (t.arena n).id = (s.arena n).id ∧ (t.arena n).since = (s.arena n).since := by
  have changed (s : Session) (stream : Nat) (change : Stream → Stream)
      (id : ∀ st, (change st).id = st.id) (since : ∀ st, (change st).since = st.since) :
      ((s.modify stream change).arena n).id = (s.arena n).id ∧
        ((s.modify stream change).arena n).since = (s.arena n).since :=
    ⟨modify_kept s Stream.id (id _) n, modify_kept s Stream.since (since _) n⟩
  cases step_move stepped with
  | heard plain frame _ _ _ did =>
    cases did with
    | grants aim => exact changed _ aim _ (fun _ => rfl) (fun _ => rfl)
    | closes =>
      have quiet := quiet_removeAndClose { s with log := s.log ++ [frame] } frame.id
      exact ⟨quiet.id n known, quiet.since n known⟩
    | _ => exact ⟨rfl, rfl⟩
  | admits id => exact ⟨(quiet_insert s id).id n known, (quiet_insert s id).since n known⟩
  | admitsNobody id =>
    have new : n ≠ s.created := Nat.ne_of_lt known
    simp [Session.modify, Session.insert, new]
  | delivers id stream body =>
    exact changed s stream (fun st => { st with inbox := (s.arena stream).inbox.push body })
      (fun _ => rfl) (fun _ => rfl)
  | evicts id =>
    exact ⟨(quiet_removeAndClose s id).id n known, (quiet_removeAndClose s id).since n known⟩
  | dies => exact ⟨(quiet_clear s).id n known, (quiet_clear s).since n known⟩
  | replies frame _ did =>
    exact ⟨(quiet_enqueue did).id n known, (quiet_enqueue did).since n known⟩
  | shutdownClear => exact ⟨(quiet_clear s).id n known, (quiet_clear s).since n known⟩
  | _ => exact ⟨rfl, rfl⟩

/-- The reader comes to the `Full` arm only by finding the inbox full. -/
theorem step_overflow (stepped : s.step act = some t) {id : UInt32}
    (finished : t.reader = .overflow id n) :
    s.reader = .overflow id n ∨ ∃ body, s.reader = .offer id n body ∧
      (s.arena n).inbox.isOpen = true ∧ inboxFrames ≤ (s.arena n).inbox.len := by
  cases step_move stepped with
  | heard plain frame idle _ _ did =>
    cases did with
    | closes =>
      rw [(quiet_removeAndClose _ _).reader] at finished
      exact .inl finished
    | grants aim => exact .inl finished
    | ignores => exact .inl finished
    | _ => cases finished
  | overflows id' stream body reading opened full =>
    cases finished
    exact .inr ⟨body, reading, opened, full⟩
  | takeBatch => exact .inl finished
  | feed => exact .inl finished
  | writerEnds => exact .inl finished
  | release => exact .inl finished
  | shutdownClear => exact .inl finished
  | shutdownAbort => exact .inl finished
  | _ => cases finished

/-- `read_loop` reads one record at a time, none larger than Noise allows. -/
theorem step_log (stepped : s.step act = some t) :
    t.log = s.log ∨ ∃ plain frame, act = .recv plain ∧ Frame.parse plain = some frame ∧
      s.reader = .idle ∧ plain.length ≤ maxNoiseMsg - tagLen ∧ t.log = s.log ++ [frame] := by
  cases step_move stepped with
  | heard plain frame idle within parsed did =>
    refine .inr ⟨plain, frame, rfl, parsed, idle, within, ?_⟩
    cases did with
    | closes => exact (quiet_removeAndClose _ _).log
    | _ => rfl
  | evicts id => exact .inl (quiet_removeAndClose s id).log
  | replies frame _ did => exact .inl (quiet_enqueue did).log
  | _ => exact .inl rfl

/-- What has been read for a stream grows by the DATA frames on its id. -/
theorem step_heard (wired : Wired s) (stepped : s.step act = some t) (known : n < s.created) :
    t.heard n = s.heard n ∨ ∃ plain frame, act = .recv plain ∧ Frame.parse plain = some frame ∧
      plain.length ≤ maxNoiseMsg - tagLen ∧
      t.heard n = s.heard n ++ dataOn (s.arena n).id [frame] := by
  obtain ⟨id, since⟩ := step_named stepped known
  unfold Session.heard
  rw [id, since]
  obtain same | ⟨plain, frame, did, parsed, -, within, more⟩ := step_log stepped
  · exact .inl (by rw [same])
  · refine .inr ⟨plain, frame, did, parsed, within, ?_⟩
    rw [more, List.drop_append_of_le_length (wired.fed n known).since, dataOn_append]

theorem step_created (stepped : s.step act = some t) : s.created ≤ t.created := by
  obtain ⟨same, -⟩ | ⟨id, -, same⟩ | ⟨-, same⟩ | ⟨id, -, -, same⟩ := step_map stepped
  · exact Nat.le_of_eq same.created.symm
  · rw [same.created]
    exact (quiet_removeAndClose s id).created
  · exact Nat.le_of_eq same.created.symm
  · rw [same.created]
    exact (quiet_insert s id).created

end DshProxy.Mux

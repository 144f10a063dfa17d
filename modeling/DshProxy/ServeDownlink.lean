import DshProxy.ServeClient
import DshProxy.MuxInbox
import Mathlib.Data.List.Induction

/-! The way down: what a tunnel has written to its client and what it has given
back to the bridge, as functions of the chunks it has taken out of its inbox. -/
namespace DshProxy.Mux
open Sync Wire Transitions

/-- The chunks the receiver has taken so far. -/
def Stream.took (st : Stream) : List Bytes := st.inbox.accepted.take st.inbox.taken

/-- The largest payload a record can carry. -/
def maxChunk : Nat := maxNoiseMsg - tagLen - frameHead

/-- What the downlink loop has granted, and what it still owes, once it has
written the chunks. -/
def ledger (chunks : List Bytes) : Nat × Nat :=
  chunks.foldl (fun (granted, pending) chunk =>
    if grantThreshold ≤ pending + chunk.length then (granted + (pending + chunk.length), 0)
    else (granted, pending + chunk.length)) (0, 0)

theorem ledger_snoc (chunks : List Bytes) (chunk : Bytes) :
    ledger (chunks ++ [chunk]) =
      if grantThreshold ≤ (ledger chunks).2 + chunk.length then
        ((ledger chunks).1 + ((ledger chunks).2 + chunk.length), 0)
      else ((ledger chunks).1, (ledger chunks).2 + chunk.length) := by
  unfold ledger
  rw [List.foldl_append]
  rfl

theorem ledger_pending (chunks : List Bytes) : (ledger chunks).2 < grantThreshold := by
  induction chunks using List.reverseRecOn with
  | nil => decide
  | append_singleton chunks chunk _ =>
    rw [ledger_snoc]
    split
    · show 0 < grantThreshold
      decide
    · dsimp only
      omega

/-- Every byte written is either granted back or owed. -/
theorem ledger_total (chunks : List Bytes) :
    (ledger chunks).1 + (ledger chunks).2 = chunks.flatten.length := by
  induction chunks using List.reverseRecOn with
  | nil => rfl
  | append_singleton chunks chunk ih =>
    rw [ledger_snoc, List.flatten_append, List.length_append, ← ih]
    split
    · simp only [List.flatten_singleton]
      omega
    · simp only [List.flatten_singleton]
      omega

theorem ledger_grows (chunks : List Bytes) (chunk : Bytes) :
    (ledger chunks).1 ≤ (ledger (chunks ++ [chunk])).1 := by
  rw [ledger_snoc]
  split
  · dsimp only
    omega
  · exact Nat.le_refl _

/-- How the tunnel's counters stand to the chunks it has taken. -/
def Tunnel.Accounts (t : Tunnel) (took : List Bytes) : Prop :=
  match t.downlink with
  | .waiting => (t.granted, t.pending) = ledger took
  | .writing _ size => ∃ before chunk, took = before ++ [chunk] ∧ size = chunk.length ∧
      (t.granted, t.pending) = ledger before
  | .granting => ∃ before chunk, took = before ++ [chunk] ∧ t.granted = (ledger before).1 ∧
      t.pending = (ledger before).2 + chunk.length ∧ grantThreshold ≤ t.pending
  | .shutting _ | .ended _ => t.granted ≤ (ledger took).1

/-- What a tunnel has done with the chunks of its stream. -/
structure Down (t : Tunnel) (st : Stream) : Prop where
  written : t.writes ++ t.downlink.rest = st.took.flatten
  accounts : t.Accounts st.took

/-- Whatever its state, a tunnel has granted no more than it has written off. -/
theorem Down.granted_le {t : Tunnel} {st : Stream} (down : Down t st) :
    t.granted ≤ (ledger st.took).1 := by
  have accounts := down.accounts
  unfold Tunnel.Accounts at accounts
  split at accounts
  · rw [← accounts]
  · obtain ⟨before, chunk, shape, -, owed⟩ := accounts
    rw [shape]
    refine Nat.le_trans ?_ (ledger_grows before chunk)
    rw [← owed]
  · obtain ⟨before, chunk, shape, owed, -⟩ := accounts
    rw [shape, owed]
    exact ledger_grows before chunk
  · exact accounts
  · exact accounts

variable {s s' : Session} {t t' : Tunnel} {n : Nat}

/-- Changing what the downlink does not look at. -/
theorem Down.of_eq {st st' : Stream} (down : Down t st) (writes : t'.writes = t.writes)
    (downlink : t'.downlink = t.downlink) (granted : t'.granted = t.granted)
    (pending : t'.pending = t.pending) (took : st'.took = st.took) : Down t' st' := by
  refine ⟨?_, ?_⟩
  · rw [writes, downlink, took]
    exact down.written
  · unfold Tunnel.Accounts
    rw [downlink, granted, pending, took]
    exact down.accounts

@[simp] theorem took_hangUp (s : Session) (stream n : Nat) :
    ((s.hangUp stream).arena n).took = (s.arena n).took := by
  by_cases same : n = stream
  · subst same
    simp [Session.hangUp, Session.modify, Stream.took]
  · simp [Session.hangUp, Session.modify, same]

@[simp] theorem took_remove (s : Session) (id : UInt32) (n : Nat) :
    ((s.remove id).arena n).took = (s.arena n).took := by
  unfold Session.remove
  split <;> rfl

theorem took_insert (s : Session) (id : UInt32) (known : n < s.created) :
    ((s.insert id).arena n).took = (s.arena n).took := by
  simp [Session.insert, Nat.ne_of_lt known]

theorem took_take (taken : s.take stream = some (chunk, s')) :
    (s'.arena stream).took = (s.arena stream).took ++ [chunk] ∧
      ∀ n, n ≠ stream → (s'.arena n).took = (s.arena n).took := by
  obtain ⟨⟨first, inbox⟩, got, same⟩ := Option.map_eq_some_iff.mp taken
  obtain ⟨rfl, -, more, -⟩ := Channel.recv_eq_some _ got
  cases same
  refine ⟨?_, fun n other => ?_⟩
  · simpa [Session.modify, Stream.took] using more
  · simp [Session.modify, other]

theorem sendStep_took (stepped : s.sendStep stream stage = some (s', next)) (n : Nat) :
    (s'.arena n).took = (s.arena n).took := by
  unfold Stream.took
  rw [sendStep_inbox stepped]

/-- A tunnel takes nothing out of an inbox but by `rx.recv` on its own. -/
theorem Move.took_other (move : Move s t act s' t') (known : n < s.created)
    (other : act = .recv → t.stream ≠ some n) : (s'.arena n).took = (s.arena n).took := by
  cases move with
  | reserve _ did =>
    obtain ⟨-, same⟩ := Option.ite_none_left_eq_some.mp did
    cases same
    rfl
  | insert id => exact took_insert s id known
  | announce stream _ did => rw [enqueue_arena did]
  | giveUp stream => simp
  | greeting stage next stream _ _ did => exact sendStep_took did n
  | rejected stage stream _ _ did =>
    rw [took_hangUp]
    exact sendStep_took did n
  | closed stream _ _ did => rw [took_hangUp, enqueue_arena did]
  | closeFails stream => exact took_hangUp s stream n
  | uplinkSend stage next stream _ _ did => exact sendStep_took did n
  | recv stream chunk _ own _ did =>
    refine (took_take did).2 n fun same => other rfl ?_
    rw [own, same]
  | grant stream _ _ _ did => rw [enqueue_arena did]
  | leave stream => exact took_remove s _ n
  | _ => rfl

/-- A tunnel's own step keeps its books. -/
theorem Move.down (move : Move s t act s' t') (down : Down t (s.arena n)) (own : t.stream = some n)
    (known : n < s.created) (small : ∀ chunk ∈ (s.arena n).took, chunk.length ≤ maxChunk) :
    Down t' (s'.arena n) := by
  have mine {stream : Nat} (same : t.stream = some stream) : stream = n :=
    Option.some.inj (same.symm.trans own)
  have written := down.written
  have accounts := down.accounts
  unfold Tunnel.Accounts at accounts
  cases move with
  | begin head => exact down.of_eq rfl rfl rfl rfl rfl
  | reserve _ did =>
    obtain ⟨-, same⟩ := Option.ite_none_left_eq_some.mp did
    cases same
    exact down.of_eq rfl rfl rfl rfl rfl
  | refused => exact down.of_eq rfl rfl rfl rfl rfl
  | allocate => exact down.of_eq rfl rfl rfl rfl rfl
  | insert id => exact down.of_eq rfl rfl rfl rfl (took_insert s id known)
  | announce stream _ did => exact down.of_eq rfl rfl rfl rfl (by rw [enqueue_arena did])
  | announceFails stream => exact down.of_eq rfl rfl rfl rfl rfl
  | giveUp stream => exact down.of_eq rfl rfl rfl rfl (by simp)
  | greeting stage next stream _ _ did =>
    have took := sendStep_took did n
    cases next <;> exact down.of_eq rfl rfl rfl rfl took
  | rejected stage stream _ _ did =>
    exact down.of_eq rfl rfl rfl rfl ((took_hangUp _ _ _).trans (sendStep_took did n))
  | closed stream _ _ did =>
    exact down.of_eq rfl rfl rfl rfl ((took_hangUp _ _ _).trans (by rw [enqueue_arena did]))
  | closeFails stream => exact down.of_eq rfl rfl rfl rfl (took_hangUp _ _ _)
  | read bytes => exact down.of_eq rfl rfl rfl rfl rfl
  | readEnds => exact down.of_eq rfl rfl rfl rfl rfl
  | uplinkSend stage next stream _ _ did => exact down.of_eq rfl rfl rfl rfl (sendStep_took did n)
  | recv stream chunk _ owned waiting did =>
    obtain rfl := mine owned
    rw [waiting] at written accounts
    have took := (took_take did).1
    refine ⟨?_, ?_⟩
    · rw [took, List.flatten_append, ← written]
      simp [Downlink.rest]
    · exact ⟨_, chunk, took, rfl, accounts⟩
  | recvEnds stream _ _ waiting =>
    rw [waiting] at written accounts
    exact ⟨written, by rw [Tunnel.Accounts, ← accounts]⟩
  | write stream count rest size _ _ writing some within =>
    rw [writing] at written accounts
    refine ⟨?_, accounts⟩
    rw [← written]
    simp [Downlink.rest]
  | writeFails stream rest size _ _ writing =>
    have fewer := down.granted_le
    rw [writing] at written
    exact ⟨written, fewer⟩
  | wrote stream size _ _ writing =>
    rw [writing] at written accounts
    obtain ⟨before, chunk, shape, rfl, owed⟩ := accounts
    have room : t.pending + chunk.length < 2 ^ 32 := by
      have low := ledger_pending before
      have short := small chunk (by rw [shape]; simp)
      rw [← owed] at low
      simp only [grantThreshold, window, maxChunk, maxNoiseMsg, tagLen, frameHead] at low short
      omega
    rw [Nat.mod_eq_of_lt room]
    have granted : t.granted = (ledger before).1 := by rw [← owed]
    have pending : t.pending = (ledger before).2 := by rw [← owed]
    by_cases full : grantThreshold ≤ t.pending + chunk.length
    · simp only [if_pos full]
      exact ⟨written, before, chunk, shape, granted, by rw [pending], full⟩
    · simp only [if_neg full]
      refine ⟨written, ?_⟩
      rw [Tunnel.Accounts, shape, ledger_snoc, ← owed, if_neg full]
  | grant stream _ _ granting did =>
    rw [granting] at written accounts
    obtain ⟨before, chunk, shape, granted, pending, full⟩ := accounts
    rw [enqueue_arena did]
    refine ⟨written, ?_⟩
    rw [Tunnel.Accounts]
    dsimp only
    rw [shape, ledger_snoc, ← pending, if_pos full, granted]
  | grantFails stream _ _ granting =>
    have fewer := down.granted_le
    rw [granting] at written
    exact ⟨written, fewer⟩
  | shutdownDone unwritten _ shutting =>
    rw [shutting] at written accounts
    exact ⟨written, accounts⟩
  | leave stream => exact down.of_eq rfl rfl rfl rfl (took_remove s _ n)

theorem Move.quiet (move : Move s t act s' t') : Quiet s s' := by
  cases move with
  | reserve _ did => exact quiet_reserve did
  | allocate => exact .of_eq rfl rfl rfl rfl rfl
  | insert id => exact quiet_insert s id
  | announce stream _ did => exact quiet_enqueue did
  | giveUp stream => exact (quiet_remove s _).trans (quiet_hangUp _ stream)
  | greeting stage next stream _ _ did => exact quiet_sendStep did
  | rejected stage stream _ _ did => exact (quiet_sendStep did).trans (quiet_hangUp _ stream)
  | closed stream _ _ did => exact (quiet_enqueue did).trans (quiet_hangUp _ stream)
  | closeFails stream => exact quiet_hangUp s stream
  | uplinkSend stage next stream _ _ did => exact quiet_sendStep did
  | recv stream chunk _ _ _ did => exact quiet_take did
  | grant stream _ _ _ did => exact quiet_enqueue did
  | leave stream => exact quiet_remove s _
  | _ => exact Quiet.refl s

theorem Move.valid (move : Move s t act s' t') (valid : Valid s) : Valid s' := by
  cases move with
  | reserve _ did =>
    obtain ⟨-, same⟩ := Option.ite_none_left_eq_some.mp did
    cases same
    exact valid.alike (.of_eq rfl rfl rfl)
  | allocate => exact valid.alike (.of_eq rfl rfl rfl)
  | insert id => exact valid_insert valid id
  | announce stream _ did => exact valid.alike (alike_enqueue did)
  | giveUp stream => exact (valid_remove valid _).alike (alike_hangUp _ stream)
  | greeting stage next stream _ _ did => exact valid.alike (alike_sendStep did)
  | rejected stage stream _ _ did =>
    exact valid.alike ((alike_sendStep did).trans (alike_hangUp _ stream))
  | closed stream _ _ did => exact valid.alike ((alike_enqueue did).trans (alike_hangUp _ stream))
  | closeFails stream => exact valid.alike (alike_hangUp s stream)
  | uplinkSend stage next stream _ _ did => exact valid.alike (alike_sendStep did)
  | recv stream chunk _ _ _ did => exact valid.alike (alike_take did)
  | grant stream _ _ _ did => exact valid.alike (alike_enqueue did)
  | leave stream => exact valid_remove valid _
  | _ => exact valid

/-- A tunnel gets its stream once, and a new one. -/
theorem Move.stream (move : Move s t act s' t') :
    t'.stream = t.stream ∨
      ∃ id, t.phase = .opening (.insert id) ∧ s' = s.insert id ∧
        t' = { t with phase := .opening (.announce s.created), stream := some s.created } := by
  cases move with
  | insert id phase => exact .inr ⟨id, phase, rfl, rfl⟩
  | greeting stage next => exact .inl (by cases next <;> rfl)
  | _ => exact .inl rfl

theorem Move.granted_grows (move : Move s t act s' t') : t.granted ≤ t'.granted := by
  cases move with
  | greeting stage next => cases next <;> exact Nat.le_refl _
  | grant => exact Nat.le_add_right _ _
  | _ => exact Nat.le_refl _

/-- What holds of a link and its tunnels in every state. -/
structure Proxy.Sound (p : Proxy) : Prop where
  wired : Wired p.session
  small : ∀ frame ∈ p.session.log, frame.payload.length ≤ maxChunk
  fits : ∀ name, (p.tunnels name).Fits
  known : ∀ {name n}, (p.tunnels name).stream = some n → n < p.session.created
  apart : ∀ {name other n}, (p.tunnels name).stream = some n → (p.tunnels other).stream = some n →
    name = other
  down : ∀ {name n}, (p.tunnels name).stream = some n → Down (p.tunnels name) (p.session.arena n)

theorem Proxy.Sound.start (maxStreams : Nat) : (Proxy.start maxStreams).Sound := by
  refine ⟨wired_start maxStreams false, ?_, ?_, ?_, ?_, ?_⟩
  · intro frame member
    cases member
  · intro name
    exact ⟨fun _ => rfl, rfl, rfl, rfl⟩
  · intro name n own
    cases own
  · intro name other n own
    cases own
  · intro name n own
    cases own

variable {p next : Proxy}

/-- Every chunk in an inbox came in one record. -/
theorem Proxy.Sound.accepted_small (sound : p.Sound) (known : n < p.session.created) :
    ∀ chunk ∈ (p.session.arena n).inbox.accepted, chunk.length ≤ maxChunk := by
  intro chunk member
  have heard := (sound.wired.fed n known).front.subset member
  simp only [Session.heard, dataOn, List.mem_filterMap] at heard
  obtain ⟨frame, read, payload⟩ := heard
  split at payload
  · cases payload
    exact sound.small frame (List.mem_of_mem_drop read)
  · cases payload

private theorem parse_small (parsed : Frame.parse plain = some frame)
    (within : plain.length ≤ maxNoiseMsg - tagLen) : frame.payload.length ≤ maxChunk := by
  unfold Frame.parse at parsed
  obtain ⟨-, same⟩ := Option.ite_none_left_eq_some.mp parsed
  cases same
  simp only [List.length_drop, maxChunk]
  omega

private theorem sound_link (sound : p.Sound) (stepped : p.session.step act = some s') :
    ({ p with session := s' } : Proxy).Sound := by
  have grown := step_created stepped
  refine ⟨wired_step sound.wired stepped, ?_, sound.fits, ?_, sound.apart, ?_⟩
  · intro frame member
    obtain same | ⟨plain, new, -, parsed, -, within, more⟩ := step_log stepped
    · rw [same] at member
      exact sound.small frame member
    · rw [more] at member
      obtain old | last := List.mem_append.mp member
      · exact sound.small frame old
      · obtain rfl := List.mem_singleton.mp last
        exact parse_small parsed within
  · intro name n own
    exact Nat.lt_of_lt_of_le (sound.known own) grown
  · intro name n own
    have known := sound.known own
    refine (sound.down own).of_eq rfl rfl rfl rfl ?_
    unfold Stream.took
    obtain same | ⟨id, body, -, -, -, -, pushed⟩ := step_inbox stepped known
    · rw [same]
    · rw [pushed, Channel.push_accepted, Channel.push_taken,
        List.take_append_of_le_length (p.session.arena n).inbox.within]

theorem Proxy.Sound.move (sound : p.Sound)
    (move : Move p.session (p.tunnels name) act s' t') :
    (p.put name s' t').Sound := by
  have quiet := move.quiet
  have own_stream {n : Nat} (own : t'.stream = some n) :
      n < s'.created ∧ Down t' (s'.arena n) ∧
        ∀ other, other ≠ name → (p.tunnels other).stream ≠ some n := by
    obtain same | ⟨id, phase, rfl, rfl⟩ := move.stream
    · rw [same] at own
      have known := sound.known own
      refine ⟨Nat.lt_of_lt_of_le known quiet.created, ?_, fun other away taken => ?_⟩
      · refine move.down (sound.down own) own known fun chunk member => ?_
        exact sound.accepted_small known chunk (List.mem_of_mem_take member)
      · exact away (sound.apart taken own)
    · obtain rfl : p.session.created = n := Option.some.inj own
      have place := (sound.fits name).place
      rw [phase] at place
      have blank := (sound.fits name).blank place
      refine ⟨Nat.lt_succ_self _, ?_, fun other _ taken => ?_⟩
      · have took : ((p.session.insert id).arena p.session.created).took = [] := by
          simp [Session.insert, Stream.took]
        rw [blank]
        refine ⟨?_, ?_⟩
        · rw [took]
          rfl
        · rw [took]
          rfl
      · exact Nat.lt_irrefl _ (sound.known taken)
  refine ⟨sound.wired.quiet quiet (move.valid sound.wired.valid), ?_, ?_, ?_, ?_, ?_⟩
  · rw [Proxy.put_session, quiet.log]
    exact sound.small
  · intro other
    by_cases same : other = name
    · subst same
      simpa using move.fits (sound.fits other)
    · simpa [same] using sound.fits other
  · intro other n own
    by_cases same : other = name
    · subst same
      exact (own_stream (by simpa using own)).1
    · rw [Proxy.put_other p same] at own
      exact Nat.lt_of_lt_of_le (sound.known own) quiet.created
  · intro first second n one two
    by_cases left : first = name <;> by_cases right : second = name
    · rw [left, right]
    · subst left
      rw [Proxy.put_self] at one
      rw [Proxy.put_other p right] at two
      exact absurd two ((own_stream one).2.2 second right)
    · subst right
      rw [Proxy.put_self] at two
      rw [Proxy.put_other p left] at one
      exact absurd one ((own_stream two).2.2 first left)
    · rw [Proxy.put_other p left] at one
      rw [Proxy.put_other p right] at two
      exact sound.apart one two
  · intro other n own
    by_cases same : other = name
    · subst same
      rw [Proxy.put_self] at own ⊢
      exact (own_stream own).2.1
    · rw [Proxy.put_other p same] at own ⊢
      have known := sound.known own
      refine (sound.down own).of_eq rfl rfl rfl rfl ?_
      exact move.took_other known fun _ mine => same (sound.apart own mine)

theorem Proxy.Sound.step (sound : p.Sound) (stepped : p.step act = some next) : next.Sound := by
  cases act with
  | link act =>
    obtain ⟨session, did, rfl⟩ := Option.map_eq_some_iff.mp stepped
    exact sound_link sound did
  | tunnel name act =>
    obtain ⟨⟨session, tunnel⟩, did, rfl⟩ := Option.map_eq_some_iff.mp stepped
    exact sound.move (tunnelStep_move did)

theorem Proxy.Sound.run (sound : p.Sound) (ran : run Proxy.step p actions = some next) :
    next.Sound :=
  run_preserves Proxy.Sound (fun _ _ _ sound stepped => sound.step stepped) sound ran

end DshProxy.Mux

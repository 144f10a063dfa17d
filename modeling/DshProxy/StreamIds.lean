import DshProxy.ServeDownlink

/-! Stream ids. They are drawn from a counter that wraps, so they tell streams
apart only as long as it has not come round, and only if the bridge opens no
streams of its own: its ids would come from a counter the proxy does not know. -/
namespace DshProxy.Mux
open Sync Wire Transitions

variable {s s' : Session} {t t' : Tunnel} {p q : Proxy}

/-- The peer has opened no stream. -/
def Session.Unopened (s : Session) : Prop := ∀ frame ∈ s.log, frame.kind ≠ .opening

/-- The reader waits to accepting a stream only after an OPEN for it. -/
theorem step_admits (stepped : s.step act = some s') {id : UInt32} (admits : s'.reader = .accepting id) :
    s.reader = .accepting id ∨ ∃ plain frame, act = .recv plain ∧ frame ∈ s'.log ∧
      frame.kind = .opening := by
  cases step_move stepped with
  | heard plain frame idle _ _ did =>
    cases did with
    | opens _ kind => exact .inr ⟨plain, frame, rfl, by simp, kind⟩
    | closes =>
      rw [(quiet_removeAndClose _ _).reader] at admits
      exact .inl admits
    | grants => exact .inl admits
    | ignores => exact .inl admits
    | _ => cases admits
  | takeBatch => exact .inl admits
  | feed => exact .inl admits
  | writerEnds => exact .inl admits
  | release => exact .inl admits
  | shutdownClear => exact .inl admits
  | shutdownAbort => exact .inl admits
  | _ => cases admits

@[simp] theorem remove_nextId (s : Session) (id : UInt32) : (s.remove id).nextId = s.nextId := by
  unfold Session.remove
  split <;> rfl

@[simp] theorem removeAndClose_nextId (s : Session) (id : UInt32) :
    (s.removeAndClose id).nextId = s.nextId := by
  unfold Session.removeAndClose
  split
  · rfl
  · exact remove_nextId s id

theorem enqueue_nextId (queued : s.enqueue frame = some s') : s'.nextId = s.nextId := by
  obtain ⟨rfl, -, -⟩ := enqueue_eq queued
  rfl

/-- The link draws no ids. -/
theorem step_nextId (stepped : s.step act = some s') : s'.nextId = s.nextId := by
  cases step_move stepped with
  | heard plain frame _ _ _ did =>
    cases did with
    | closes => exact removeAndClose_nextId _ _
    | _ => rfl
  | evicts id => exact removeAndClose_nextId s id
  | replies frame _ did =>
    have counter := enqueue_nextId did
    exact counter
  | _ => rfl

theorem remove_created (s : Session) (id : UInt32) : (s.remove id).created = s.created := by
  unfold Session.remove
  split <;> rfl

theorem removeAndClose_created (s : Session) (id : UInt32) :
    (s.removeAndClose id).created = s.created := by
  unfold Session.removeAndClose
  split
  · rfl
  · exact remove_created s id

theorem step_creates (stepped : s.step act = some s') (closed : ∀ id, s.reader ≠ .accepting id) :
    s'.created = s.created := by
  obtain ⟨same, -⟩ | ⟨id, -, same⟩ | ⟨-, same⟩ | ⟨id, -, reading, -⟩ := step_map stepped
  · exact same.created
  · exact same.created.trans (removeAndClose_created s id)
  · exact same.created
  · exact absurd reading (closed id)

/-- What a step of a tunnel does with ids: nothing, draw one, or give the drawn
one to a new stream. -/
inductive Draws (s : Session) (t : Tunnel) : Session → Tunnel → Prop
  | nothing (created : session.created = s.created) (counter : session.nextId = s.nextId)
    (holding : ∀ id, tunnel.phase = .opening (.insert id) → t.phase = .opening (.insert id)) :
    Draws s t session tunnel
  | draws : Draws s t { s with nextId := s.nextId + 1 }
      { t with phase := .opening (.insert (.ofNat s.nextId)) }
  | names (id) (holding : t.phase = .opening (.insert id)) :
    Draws s t (s.insert id)
      { t with phase := .opening (.announce s.created), stream := some s.created }

theorem sendStep_created (did : s.sendStep stream stage = some (s', next)) :
    s'.created = s.created ∧ s'.nextId = s.nextId := by
  cases sendStep_move did with
  | queues chunk rest queued => exact ⟨(alike_enqueue queued).created, enqueue_nextId queued⟩
  | _ => exact ⟨rfl, rfl⟩

theorem Move.draws (move : Move s t act s' t') : Draws s t s' t' := by
  cases move with
  | reserve _ did =>
    obtain ⟨-, same⟩ := Option.ite_none_left_eq_some.mp did
    cases same
    exact .nothing rfl rfl (by simp)
  | allocate => exact .draws
  | insert id phase => exact .names id phase
  | announce stream _ did => exact .nothing (alike_enqueue did).created (enqueue_nextId did) (by simp)
  | giveUp stream => exact .nothing (remove_created s _) (remove_nextId s _) (by simp)
  | greeting stage next stream _ _ did =>
    obtain ⟨created, counter⟩ := sendStep_created did
    exact .nothing created counter (by cases next <;> simp [Tunnel.greeted])
  | rejected stage stream _ _ did =>
    obtain ⟨created, counter⟩ := sendStep_created did
    exact .nothing created counter (by simp)
  | closed stream _ _ did =>
    have counter := enqueue_nextId did
    exact .nothing (alike_enqueue did).created counter (by simp)
  | uplinkSend stage next stream _ _ did =>
    obtain ⟨created, counter⟩ := sendStep_created did
    exact .nothing created counter fun _ holding => holding
  | recv stream chunk _ _ _ did =>
    obtain ⟨⟨first, inbox⟩, -, same⟩ := Option.map_eq_some_iff.mp did
    cases same
    exact .nothing rfl rfl fun _ holding => holding
  | grant stream _ _ _ did =>
    exact .nothing (alike_enqueue did).created (enqueue_nextId did) fun _ holding => holding
  | leave stream => exact .nothing (remove_created s _) (remove_nextId s _) (by simp)
  | begin => exact .nothing rfl rfl (by simp)
  | refused => exact .nothing rfl rfl (by simp)
  | announceFails => exact .nothing rfl rfl (by simp)
  | closeFails => exact .nothing rfl rfl (by simp)
  | _ => exact .nothing rfl rfl fun _ holding => holding

/-- Ids tell streams apart. -/
structure Proxy.Ids (p : Proxy) : Prop where
  reader : ∀ id, p.session.reader ≠ .accepting id
  counts : 0 < p.session.nextId
  drawn : ∀ n < p.session.created,
    0 < (p.session.arena n).id.toNat ∧ (p.session.arena n).id.toNat < p.session.nextId
  apart : ∀ n k, n < p.session.created → k < p.session.created →
    (p.session.arena n).id = (p.session.arena k).id → n = k
  held : ∀ name id, (p.tunnels name).phase = .opening (.insert id) →
    0 < id.toNat ∧ id.toNat < p.session.nextId ∧ ∀ n < p.session.created, (p.session.arena n).id ≠ id
  heldOnce : ∀ name other id, (p.tunnels name).phase = .opening (.insert id) →
    (p.tunnels other).phase = .opening (.insert id) → name = other

theorem Proxy.Ids.start (maxStreams : Nat) : (Proxy.start maxStreams).Ids := by
  refine ⟨?_, Nat.one_pos, ?_, ?_, ?_, ?_⟩
  · intro id reading
    cases reading
  · intro n known
    exact absurd known (Nat.not_lt_zero n)
  · intro n k known
    exact absurd known (Nat.not_lt_zero n)
  · intro name id holding
    cases holding
  · intro name other id holding
    cases holding

/-- The link keeps them apart as long as the peer opens nothing. -/
theorem Proxy.Ids.link (ids : p.Ids) (stepped : p.session.step act = some s')
    (unopened : s'.Unopened) : ({ p with session := s' } : Proxy).Ids := by
  have created := step_creates stepped ids.reader
  have counter := step_nextId stepped
  have named {n : Nat} (known : n < s'.created) : (s'.arena n).id = (p.session.arena n).id :=
    (step_named stepped (created ▸ known)).1
  refine ⟨fun id admits => ?_, ?_, fun n known => ?_, fun n k first second same => ?_,
    fun name id holding => ?_, ids.heldOnce⟩
  · obtain before | ⟨-, frame, -, member, kind⟩ := step_admits stepped admits
    · exact ids.reader id before
    · exact unopened frame member kind
  · dsimp only
    rw [counter]
    exact ids.counts
  · dsimp only at known ⊢
    rw [named known, counter]
    exact ids.drawn n (created ▸ known)
  · dsimp only at first second same
    rw [named first, named second] at same
    exact ids.apart n k (created ▸ first) (created ▸ second) same
  · obtain ⟨some, below, fresh⟩ := ids.held name id holding
    refine ⟨some, ?_, fun n known => ?_⟩
    · dsimp only
      rw [counter]
      exact below
    · dsimp only at known ⊢
      rw [named known]
      exact fresh n (created ▸ known)

/-- The phases of all tunnels after a step of one. -/
private theorem put_phase {name other : Nat} {phase : Phase}
    (stands : ((p.put name s' t').tunnels other).phase = phase) :
    (other = name ∧ t'.phase = phase) ∨ (other ≠ name ∧ (p.tunnels other).phase = phase) := by
  by_cases same : other = name
  · subst same
    rw [Proxy.put_self] at stands
    exact .inl ⟨rfl, stands⟩
  · rw [Proxy.put_other _ same] at stands
    exact .inr ⟨same, stands⟩

private theorem ids_nothing (ids : p.Ids) (move : Move p.session (p.tunnels name) act s' t')
    (created : s'.created = p.session.created) (counter : s'.nextId = p.session.nextId)
    (holding : ∀ id, t'.phase = .opening (.insert id) →
      (p.tunnels name).phase = .opening (.insert id)) : (p.put name s' t').Ids := by
  have quiet := move.quiet
  have was {other : Nat} {id : UInt32}
      (held : ((p.put name s' t').tunnels other).phase = .opening (.insert id)) :
      (p.tunnels other).phase = .opening (.insert id) := by
    obtain ⟨rfl, mine⟩ | ⟨-, other⟩ := put_phase held
    · exact holding id mine
    · exact other
  have named {n : Nat} (known : n < s'.created) : (s'.arena n).id = (p.session.arena n).id :=
    quiet.id n (created ▸ known)
  refine ⟨fun id admits => ?_, ?_, fun n known => ?_, fun n k first second same => ?_,
    fun other id held => ?_, fun one two id first second => ids.heldOnce one two id (was first) (was second)⟩
  · rw [Proxy.put_session, quiet.reader] at admits
    exact ids.reader id admits
  · rw [Proxy.put_session, counter]
    exact ids.counts
  · rw [Proxy.put_session] at known ⊢
    rw [named known, counter]
    exact ids.drawn n (created ▸ known)
  · rw [Proxy.put_session] at first second same
    rw [named first, named second] at same
    exact ids.apart n k (created ▸ first) (created ▸ second) same
  · obtain ⟨some, below, fresh⟩ := ids.held other id (was held)
    refine ⟨some, ?_, fun n known => ?_⟩
    · rw [Proxy.put_session, counter]
      exact below
    · rw [Proxy.put_session] at known ⊢
      rw [named known]
      exact fresh n (created ▸ known)

private theorem ids_draws (ids : p.Ids) (low : p.session.nextId < 2 ^ 32) :
    (p.put name { p.session with nextId := p.session.nextId + 1 }
      { p.tunnels name with phase := .opening (.insert (.ofNat p.session.nextId)) }).Ids := by
  have value : (UInt32.ofNat p.session.nextId).toNat = p.session.nextId :=
    UInt32.toNat_ofNat_of_lt (by simpa using low)
  have older {other : Nat} {id : UInt32}
      (held : (p.tunnels other).phase = .opening (.insert id)) : id ≠ .ofNat p.session.nextId := by
    rintro rfl
    have below := (ids.held other _ held).2.1
    rw [value] at below
    exact Nat.lt_irrefl _ below
  refine ⟨ids.reader, Nat.succ_pos _, fun n known => ?_, ids.apart, fun other id held => ?_,
    fun one two id first second => ?_⟩
  · obtain ⟨some, below⟩ := ids.drawn n known
    exact ⟨some, Nat.lt_succ_of_lt below⟩
  · obtain ⟨rfl, mine⟩ | ⟨-, before⟩ := put_phase held
    · cases mine
      rw [value]
      refine ⟨ids.counts, Nat.lt_succ_self _, fun n known same => ?_⟩
      have below := (ids.drawn n known).2
      rw [show (p.session.arena n).id = _ from same, value] at below
      exact Nat.lt_irrefl _ below
    · obtain ⟨some, below, fresh⟩ := ids.held other id before
      exact ⟨some, Nat.lt_succ_of_lt below, fresh⟩
  · obtain ⟨rfl, mine⟩ | ⟨-, before⟩ := put_phase first <;>
      obtain ⟨rfl, yours⟩ | ⟨-, after⟩ := put_phase second
    · rfl
    · cases mine
      exact absurd rfl (older after)
    · cases yours
      exact absurd rfl (older before)
    · exact ids.heldOnce one two id before after

private theorem ids_names (ids : p.Ids) {id : UInt32}
    (holding : (p.tunnels name).phase = .opening (.insert id)) :
    (p.put name (p.session.insert id) { p.tunnels name with
      phase := .opening (.announce p.session.created), stream := some p.session.created }).Ids := by
  obtain ⟨some, below, fresh⟩ := ids.held name id holding
  have new : ((p.session.insert id).arena p.session.created).id = id := by simp [Session.insert]
  have split {n : Nat} (known : n < p.session.created + 1) :
      n = p.session.created ∨
        (n < p.session.created ∧ (p.session.insert id).arena n = p.session.arena n) := by
    obtain older | rfl := Nat.lt_succ_iff_lt_or_eq.mp known
    · exact .inr ⟨older, arena_insert _ id older⟩
    · exact .inl rfl
  refine ⟨ids.reader, ids.counts, fun n known => ?_, fun n k first second same => ?_,
    fun other other' held => ?_, fun one two id' first second => ?_⟩
  · rw [Proxy.put_session] at known ⊢
    obtain rfl | ⟨older, kept⟩ := split known
    · rw [new]
      exact ⟨some, below⟩
    · rw [kept]
      exact ids.drawn n older
  · rw [Proxy.put_session] at first second same
    obtain rfl | ⟨older, kept⟩ := split first <;> obtain rfl | ⟨newer, left⟩ := split second
    · rfl
    · rw [new, left] at same
      exact absurd same.symm (fresh k newer)
    · rw [new, kept] at same
      exact absurd same (fresh n older)
    · rw [kept, left] at same
      exact ids.apart n k older newer same
  · obtain ⟨-, mine⟩ | ⟨away, before⟩ := put_phase held
    · cases mine
    · obtain ⟨some, below, fresh'⟩ := ids.held other other' before
      refine ⟨some, below, fun n known same => ?_⟩
      rw [Proxy.put_session] at known same
      obtain rfl | ⟨older, kept⟩ := split known
      · rw [new] at same
        subst same
        exact away (ids.heldOnce other name id before holding)
      · rw [kept] at same
        exact fresh' n older same
  · obtain ⟨-, mine⟩ | ⟨-, before⟩ := put_phase first
    · cases mine
    · obtain ⟨-, yours⟩ | ⟨-, after⟩ := put_phase second
      · cases yours
      · exact ids.heldOnce one two id' before after

theorem Move.nextId (move : Move s t act s' t') : s.nextId ≤ s'.nextId := by
  cases move.draws with
  | nothing _ counter => exact Nat.le_of_eq counter.symm
  | draws => exact Nat.le_succ _
  | names => exact Nat.le_refl _

/-- A step of a tunnel before the counter comes round keeps ids apart. -/
theorem Proxy.Ids.move (ids : p.Ids) (move : Move p.session (p.tunnels name) act s' t')
    (low : s'.nextId < 2 ^ 32) : (p.put name s' t').Ids := by
  have below := Nat.lt_of_le_of_lt move.nextId low
  cases move.draws with
  | nothing created counter holding => exact ids_nothing ids move created counter holding
  | draws => exact ids_draws ids below
  | names id holding => exact ids_names ids holding

end DshProxy.Mux

import DshProxy.StreamBudget
import DshProxy.StreamIds

/-! What a `serve_client` leaves behind when it returns. A state that one of the
link's tasks takes out of the map is dropped, and its budget slot given back, a
little later than it is removed; a tunnel drops what it removes itself before it
does anything else. -/
namespace DshProxy.Mux
open Sync Wire Transitions

/-- The stream is in the map. -/
def Session.maps (s : Session) (n : Nat) : Bool := s.streams (s.arena n).id = some n

/-- The streams a step has taken out of the map. -/
def departed (s t : Session) : List Nat :=
  (List.range s.created).filter fun n => s.maps n && !t.maps n

/-- A link with its tunnels, and the streams whose removed state is not dropped yet. -/
structure Exits where
  proxy : Proxy
  dropping : List Nat := []

inductive ExitAct
  | act (act : ProxyAct)
  /-- The task that removed the stream drops its state. -/
  | drop (stream : Nat)
  deriving DecidableEq, Repr

def Exits.step (e : Exits) : ExitAct → Option Exits
  | .act (.link .release) => none
  | .act (.link act) =>
    (e.proxy.step (.link act)).map fun proxy =>
      { proxy, dropping := e.dropping ++ departed e.proxy.session proxy.session }
  | .act (.tunnel name act) =>
    (e.proxy.step (.tunnel name act)).bind fun proxy =>
      if e.proxy.session.limbo < proxy.session.limbo then
        (proxy.step (.link .release)).map fun proxy => { e with proxy }
      else some { e with proxy }
  | .drop stream =>
    if stream ∈ e.dropping then
      (e.proxy.step (.link .release)).map fun proxy =>
        { proxy, dropping := e.dropping.erase stream }
    else none

def Exits.start (maxStreams : Nat) : Exits := { proxy := .start maxStreams }

/-- The stream's id is not in the map, and its budget slot is back. -/
def Exits.Released (e : Exits) (n : Nat) : Prop :=
  e.proxy.session.streams (e.proxy.session.arena n).id = none ∧ n ∉ e.dropping

/-- No `serve_client` under way has a stream of this id. -/
def Proxy.Unclaimed (p : Proxy) (id : UInt32) : Prop :=
  ∀ name n, (p.tunnels name).stream = some n → (p.tunnels name).phase ≠ .returned →
    (p.session.arena n).id ≠ id

/-- The next piece of the tunnel's caller is its last. -/
def Session.Returns (s : Session) (t : Tunnel) : Prop :=
  match t.phase with
  | .opening (.giveUp _) | .closing => True
  | .greeting stage => ∀ n ∈ t.stream, s.SendFails n stage
  | _ => False

/-- New streams get ids that no stream under way has. A tunnel does not return
between the removal of its stream by the link and the drop, and its preamble does
not meet a dead outbox while the stream is in the map. -/
def Exits.Permits (e : Exits) : ExitAct → Prop
  | .act (.link .advance) =>
    ∀ id, e.proxy.session.reader = .accepting id → e.proxy.Unclaimed id
  | .act (.tunnel name .proceed) =>
    (∀ id, (e.proxy.tunnels name).phase = .opening (.insert id) → e.proxy.Unclaimed id) ∧
    ∀ n, (e.proxy.tunnels name).stream = some n →
      (e.proxy.session.Returns (e.proxy.tunnels name) → n ∉ e.dropping) ∧
      ∀ chunk rest, (e.proxy.tunnels name).phase = .greeting (.queue chunk rest) →
        e.proxy.session.out.isOpen = false → e.proxy.session.maps n = false
  | _ => True

variable {s mid next : Session} {t t' : Tunnel} {id : UInt32}

/-- Two sessions with the same map, the same ids and as many states to drop. -/
structure Keeps (s t : Session) : Prop where
  limbo : t.limbo = s.limbo
  streams : t.streams = s.streams
  created : t.created = s.created
  ids : ∀ n, (t.arena n).id = (s.arena n).id

theorem Owes.keeps {t : Session} (owes : Owes s t) : Keeps s t :=
  ⟨owes.limbo, owes.streams, owes.created, owes.ids⟩

theorem Keeps.refl (s : Session) : Keeps s s := ⟨rfl, rfl, rfl, fun _ => rfl⟩

theorem Keeps.trans (first : Keeps s mid) (second : Keeps mid next) : Keeps s next :=
  ⟨second.limbo.trans first.limbo, second.streams.trans first.streams,
    second.created.trans first.created, fun n => (second.ids n).trans (first.ids n)⟩

theorem keeps_hangUp (s : Session) (n : Nat) : Keeps s (s.hangUp n) := (owes_modify s n _ rfl).keeps

theorem keeps_removeAndClose (s : Session) (id : UInt32) :
    Keeps (s.remove id) (s.removeAndClose id) := by
  cases found : s.streams id with
  | none => simpa [Session.removeAndClose, Session.remove, found] using .refl s
  | some stream =>
    simp only [Session.removeAndClose, found]
    exact (owes_modify (s.remove id) stream _ rfl).keeps

/-- Everything a link step but a drop can do to the map. -/
theorem step_map_slots {act : Session.Act} (stepped : s.step act = some next) (other : act ≠ .release) :
    Keeps s next ∨ (∃ id, Keeps (s.remove id) next) ∨ Keeps s.clear next ∨
      ∃ id, act = .advance ∧ s.reader = .accepting id ∧ Keeps (s.insert id) next := by
  cases step_move stepped with
  | heard plain frame _ _ _ did =>
    cases did with
    | grants aim =>
      have kept := owes_modify { s with log := s.log ++ [frame] } aim
        (fun st => { st with credit := st.credit.addPermits (ByteOrder.ofBe frame.payload) }) rfl
      exact .inl ⟨kept.limbo, kept.streams, kept.created, kept.ids⟩
    | closes =>
      refine .inr (.inl ⟨frame.id, ?_⟩)
      have logged : Keeps (s.remove frame.id)
          (({ s with log := s.log ++ [frame] } : Session).remove frame.id) := by
        unfold Session.remove
        dsimp only
        split <;> exact ⟨rfl, rfl, rfl, fun _ => rfl⟩
      exact logged.trans (keeps_removeAndClose _ frame.id)
    | _ => exact .inl ⟨rfl, rfl, rfl, fun _ => rfl⟩
  | admits id reading => exact .inr (.inr (.inr ⟨id, rfl, reading, ⟨rfl, rfl, rfl, fun _ => rfl⟩⟩))
  | admitsNobody id reading =>
    have kept := owes_modify { s.insert id with reader := .idle } s.created
      (fun st => { st with inbox := st.inbox.close }) rfl
    exact .inr (.inr (.inr ⟨id, rfl, reading, ⟨kept.limbo, kept.streams, kept.created, kept.ids⟩⟩))
  | delivers id stream body =>
    have kept := owes_modify s stream (fun st => { st with inbox := (s.arena stream).inbox.push body }) rfl
    exact .inl ⟨kept.limbo, kept.streams, kept.created, kept.ids⟩
  | evicts id =>
    have kept := keeps_removeAndClose s id
    exact .inr (.inl ⟨id, kept.limbo, kept.streams, kept.created, kept.ids⟩)
  | dies => exact .inr (.inr (.inl ⟨rfl, rfl, rfl, fun _ => rfl⟩))
  | shutdownClear => exact .inr (.inr (.inl ⟨rfl, rfl, rfl, fun _ => rfl⟩))
  | replies frame _ did =>
    have kept := owes_enqueue did
    exact .inl ⟨kept.limbo, kept.streams, kept.created, kept.ids⟩
  | release => exact absurd rfl other
  | _ => exact .inl ⟨rfl, rfl, rfl, fun _ => rfl⟩

/-- Everything a tunnel's step can do to the map. -/
theorem Move.map_slots (move : Move s t act next t') (fits : t.Fits) :
    Keeps s next ∨
    (∃ id, act = .proceed ∧ t.phase = .opening (.insert id) ∧ next = s.insert id ∧
      t'.stream = some s.created) ∨
    ∃ n, t.stream = some n ∧ Keeps (s.remove (s.arena n).id) next := by
  cases move with
  | reserve _ did =>
    obtain ⟨-, same⟩ := Option.ite_none_left_eq_some.mp did
    cases same
    exact .inl ⟨rfl, rfl, rfl, fun _ => rfl⟩
  | allocate => exact .inl ⟨rfl, rfl, rfl, fun _ => rfl⟩
  | insert id phase => exact .inr (.inl ⟨id, rfl, phase, rfl, rfl⟩)
  | announce stream _ did => exact .inl (owes_enqueue did).keeps
  | giveUp stream phase =>
    have place := fits.place
    rw [phase] at place
    exact .inr (.inr ⟨stream, place, keeps_hangUp _ stream⟩)
  | greeting stage next stream _ _ did => exact .inl (owes_sendStep did).keeps
  | rejected stage stream _ _ did =>
    exact .inl ((owes_sendStep did).keeps.trans (keeps_hangUp _ stream))
  | closed stream _ _ did => exact .inl ((owes_enqueue did).keeps.trans (keeps_hangUp _ stream))
  | closeFails stream => exact .inl (keeps_hangUp s stream)
  | uplinkSend stage next stream _ _ did => exact .inl (owes_sendStep did).keeps
  | recv stream chunk _ _ _ did => exact .inl (owes_take did).keeps
  | grant stream _ _ _ did => exact .inl (owes_enqueue did).keeps
  | leave stream _ own => exact .inr (.inr ⟨stream, own, .refl _⟩)
  | _ => exact .inl (.refl s)

section Slots

theorem Keeps.maps (kept : Keeps s next) (n : Nat) : next.maps n = s.maps n := by
  simp only [Session.maps, kept.streams, kept.ids]

theorem Keeps.departed (kept : Keeps mid next) (s : Session) : departed s next = Mux.departed s mid := by
  simp only [Mux.departed, kept.maps]

/-- Entries that are still there, and those that have left. -/
theorem count_departed (s next : Session)
    (still : ∀ n < s.created, next.maps n = true → s.maps n = true) :
    (List.range s.created).countP next.maps + (departed s next).length = s.count := by
  have there : (List.range s.created).countP next.maps =
      ((List.range s.created).filter s.maps).countP next.maps := by
    rw [List.countP_filter]
    refine List.countP_congr fun n member => ?_
    rw [Bool.and_eq_true]
    exact ⟨fun after => ⟨after, still n (List.mem_range.mp member) after⟩, And.left⟩
  have left : (departed s next).length =
      ((List.range s.created).filter s.maps).countP (fun n => ¬ next.maps n) := by
    rw [List.countP_filter, departed, List.countP_eq_length_filter]
    simp [Bool.and_comm]
  rw [there, left, ← List.length_eq_countP_add_countP, ← List.countP_eq_length_filter]
  rfl

private theorem maps_remove (s : Session) (id : UInt32) (n : Nat)
    (found : (s.remove id).maps n = true) : s.maps n = true := by
  simp only [Session.maps, arena_remove, remove_streams, decide_eq_true_eq] at found ⊢
  split at found
  · cases found
  · exact found

theorem limbo_remove (valid : Valid s) (id : UInt32) :
    (s.remove id).limbo = s.limbo + (departed s (s.remove id)).length := by
  have split := count_departed s (s.remove id) fun n _ => maps_remove s id n
  have total := count_remove valid id
  have count : (List.range s.created).countP (s.remove id).maps = (s.remove id).count := by
    rw [Session.count, remove_created]
    rfl
  omega

theorem limbo_clear (s : Session) : s.clear.limbo = s.limbo + (departed s s.clear).length := by
  have split := count_departed s s.clear fun n _ found => by
    simp [Session.maps, Session.clear] at found
  have none : (List.range s.created).countP s.clear.maps = 0 := by
    simp [Session.maps, Session.clear]
  have same : s.clear.limbo = s.limbo + s.count := rfl
  omega

theorem limbo_insert (valid : Valid s) (id : UInt32) :
    (s.insert id).limbo = s.limbo + (departed s (s.insert id)).length := by
  have split := count_departed s (s.insert id) fun n known found => by
    simp only [Session.maps, Session.insert, Function.update_of_ne (Nat.ne_of_lt known),
      decide_eq_true_eq] at found ⊢
    by_cases same : (s.arena n).id = id
    · rw [same, Function.update_self] at found
      cases found
      exact absurd known (Nat.lt_irrefl _)
    · rwa [Function.update_of_ne same] at found
  have total := count_insert valid id
  have count : (s.insert id).count = (List.range s.created).countP (s.insert id).maps + 1 := by
    show (List.range (s.created + 1)).countP (s.insert id).maps = _
    rw [List.range_succ, List.countP_append, List.countP_singleton,
      if_pos (by simp [Session.maps, Session.insert])]
  omega

/-- Every state a link step takes out of the map is one more to drop. -/
theorem limbo_step (valid : Valid s) {act : Session.Act} (stepped : s.step act = some next)
    (other : act ≠ .release) : next.limbo = s.limbo + (departed s next).length := by
  obtain kept | ⟨id, kept⟩ | kept | ⟨id, -, -, kept⟩ := step_map_slots stepped other
  · rw [kept.limbo, kept.departed, departed]
    simp
  · rw [kept.limbo, kept.departed]
    exact limbo_remove valid id
  · rw [kept.limbo, kept.departed]
    exact limbo_clear s
  · rw [kept.limbo, kept.departed]
    exact limbo_insert valid id

end Slots

/-- A stream keeps its id, and nothing new comes under it. -/
structure Settles (n : Nat) (s next : Session) : Prop where
  id : (next.arena n).id = (s.arena n).id
  streams : next.streams (s.arena n).id = s.streams (s.arena n).id ∨
    next.streams (s.arena n).id = none

section Settling
variable {n : Nat}

theorem Keeps.settles (kept : Keeps s next) (n : Nat) : Settles n s next :=
  ⟨kept.ids n, .inl (by rw [kept.streams])⟩

theorem Settles.trans (first : Settles n s mid) (second : Settles n mid next) : Settles n s next := by
  refine ⟨second.id.trans first.id, ?_⟩
  have later := second.streams
  rw [first.id] at later
  obtain same | none := later
  · rw [same]
    exact first.streams
  · exact .inr none

theorem settles_remove (s : Session) (id : UInt32) (n : Nat) : Settles n s (s.remove id) := by
  refine ⟨by rw [arena_remove], ?_⟩
  rw [remove_streams]
  split
  · exact .inr rfl
  · exact .inl rfl

theorem settles_clear (s : Session) (n : Nat) : Settles n s s.clear := by
  refine ⟨?_, .inr rfl⟩
  simp only [Session.clear]
  split <;> rfl

theorem settles_insert (known : n < s.created) (other : (s.arena n).id ≠ id) :
    Settles n s (s.insert id) := by
  constructor
  · simp [Session.insert, Function.update_of_ne (Nat.ne_of_lt known)]
  · exact .inl (Function.update_of_ne other _ _)

theorem settles_step {act : Session.Act} (stepped : s.step act = some next) (known : n < s.created)
    (unclaimed : ∀ id, act = .advance → s.reader = .accepting id → (s.arena n).id ≠ id) :
    Settles n s next := by
  by_cases drops : act = .release
  · subst drops
    obtain ⟨-, same⟩ := Option.ite_none_right_eq_some.mp stepped
    cases same
    exact ⟨rfl, .inl rfl⟩
  · obtain kept | ⟨id, kept⟩ | kept | ⟨id, advance, reading, kept⟩ := step_map_slots stepped drops
    · exact kept.settles n
    · exact (settles_remove s id n).trans (kept.settles n)
    · exact (settles_clear s n).trans (kept.settles n)
    · exact (settles_insert known (unclaimed id advance reading)).trans (kept.settles n)

theorem Move.settles (move : Move s t act next t') (fits : t.Fits) (known : n < s.created)
    (unclaimed : ∀ id, act = .proceed → t.phase = .opening (.insert id) → (s.arena n).id ≠ id) :
    Settles n s next := by
  obtain kept | ⟨id, proceeds, phase, rfl, -⟩ | ⟨k, -, kept⟩ := move.map_slots fits
  · exact kept.settles n
  · exact settles_insert known (unclaimed id proceeds phase)
  · exact (settles_remove s _ n).trans (kept.settles n)

theorem Settles.claimed (settles : Settles n s next)
    (claimed : s.streams (s.arena n).id = none ∨ s.maps n = true) :
    next.streams (next.arena n).id = none ∨ next.maps n = true := by
  simp only [Session.maps, settles.id, decide_eq_true_eq] at claimed ⊢
  obtain same | none := settles.streams
  · rw [same]
    exact claimed
  · exact .inl none

theorem Settles.absent (settles : Settles n s next) (absent : s.streams (s.arena n).id = none) :
    next.streams (next.arena n).id = none := by
  rw [settles.id]
  obtain same | none := settles.streams
  · rw [same, absent]
  · exact none

end Settling

/-- Where the ids of the tunnels under way stand in the map. -/
structure Proxy.Claims (p : Proxy) : Prop where
  /-- An id is there for its own stream or not at all. -/
  claimed : ∀ name n, (p.tunnels name).stream = some n → (p.tunnels name).phase ≠ .returned →
    p.session.streams (p.session.arena n).id = none ∨ p.session.maps n = true
  closing : ∀ name n, (p.tunnels name).stream = some n → (p.tunnels name).phase = .closing →
    p.session.streams (p.session.arena n).id = none

/-- What holds of a link and its tunnels in every run that meets the conditions. -/
structure Exits.Sound (e : Exits) : Prop where
  proxy : e.proxy.Sound
  claims : e.proxy.Claims
  slots : e.proxy.session.limbo = e.dropping.length

theorem Exits.Sound.start (maxStreams : Nat) : (Exits.start maxStreams).Sound :=
  ⟨.start maxStreams, ⟨fun _ _ own => (by cases own), fun _ _ own => (by cases own)⟩, rfl⟩

variable {e e' : Exits}

/-- A state is dropped: nothing changes but the count. -/
private theorem step_release {p q : Proxy} (did : p.step (.link .release) = some q) :
    q.tunnels = p.tunnels ∧ q.session.streams = p.session.streams ∧ q.session.arena = p.session.arena ∧
      q.session.limbo + 1 = p.session.limbo := by
  obtain ⟨session, released, rfl⟩ := Option.map_eq_some_iff.mp did
  obtain ⟨some, same⟩ := Option.ite_none_right_eq_some.mp released
  cases same
  exact ⟨rfl, rfl, rfl, Nat.sub_add_cancel some⟩

/-- The same tunnels over the same map. -/
private theorem Proxy.Claims.of_eq {p q : Proxy} (claims : p.Claims) (tunnels : q.tunnels = p.tunnels)
    (streams : q.session.streams = p.session.streams) (arena : q.session.arena = p.session.arena) :
    q.Claims := by
  refine ⟨fun name n own under => ?_, fun name n own closing => ?_⟩
  · simp only [Session.maps, streams, arena]
    exact claims.claimed name n (tunnels ▸ own) (tunnels ▸ under)
  · simp only [streams, arena]
    exact claims.closing name n (tunnels ▸ own) (tunnels ▸ closing)

private theorem link_shape (e : Exits) {act : Session.Act} (other : act ≠ .release) :
    e.step (.act (.link act)) = (e.proxy.step (.link act)).map fun proxy =>
      { proxy, dropping := e.dropping ++ departed e.proxy.session proxy.session } := by
  cases act with
  | release => exact absurd rfl other
  | _ => rfl

private theorem sound_linked (sound : e.Sound) {act : Session.Act} (other : act ≠ .release)
    (permitted : e.Permits (.act (.link act))) (stepped : e.step (.act (.link act)) = some e') :
    e'.Sound := by
  rw [link_shape e other] at stepped
  obtain ⟨proxy, did, rfl⟩ := Option.map_eq_some_iff.mp stepped
  obtain ⟨session, linked, rfl⟩ := Option.map_eq_some_iff.mp did
  have settles {name n : Nat} (own : (e.proxy.tunnels name).stream = some n)
      (under : (e.proxy.tunnels name).phase ≠ .returned) : Settles n e.proxy.session session := by
    refine settles_step linked (sound.proxy.known own) ?_
    rintro id rfl reading
    exact permitted id reading name n own under
  refine ⟨sound.proxy.step did, ⟨fun name n own under => ?_, fun name n own closing => ?_⟩, ?_⟩
  · exact (settles own under).claimed (sound.claims.claimed name n own under)
  · exact (settles own (by rw [closing]; simp)).absent (sound.claims.closing name n own closing)
  · rw [List.length_append, ← sound.slots]
    exact limbo_step sound.proxy.wired.valid linked other

theorem Move.returned (move : Move s t act next t') (ended : t.phase = .returned) : t'.phase = .returned := by
  cases move <;> first
    | exact ended
    | simp_all

/-- A tunnel that closes its stream has just removed it, or did so before. -/
theorem Move.closes (move : Move s t act next t') (closing : t'.phase = .closing) :
    t.phase = .closing ∧ t'.stream = t.stream ∨
      ∃ n, t'.stream = some n ∧ next = s.remove (s.arena n).id := by
  cases move with
  | leave stream _ own => exact .inr ⟨stream, own, rfl⟩
  | greeting stage after => cases after <;> cases closing
  | _ => first
    | exact .inl ⟨closing, rfl⟩
    | cases closing

/-- A tunnel takes at most one state out of the map at a time. -/
theorem Move.limbo (move : Move s t act next t') (fits : t.Fits) :
    next.limbo = s.limbo ∨ next.limbo = s.limbo + 1 := by
  obtain kept | ⟨id, -, -, rfl, -⟩ | ⟨n, -, kept⟩ := move.map_slots fits
  · exact .inl kept.limbo
  · simp only [Session.insert]
    split
    · exact .inr rfl
    · exact .inl rfl
  · rw [kept.limbo, Session.remove]
    split
    · exact .inl rfl
    · exact .inr rfl

private theorem claims_moved (sound : e.Sound) {name : Nat} {act : TunnelAct}
    (permitted : e.Permits (.act (.tunnel name act)))
    (move : Move e.proxy.session (e.proxy.tunnels name) act next t') :
    (e.proxy.put name next t').Claims := by
  have fits := sound.proxy.fits name
  have settles {other n : Nat} (own : (e.proxy.tunnels other).stream = some n)
      (under : (e.proxy.tunnels other).phase ≠ .returned) : Settles n e.proxy.session next := by
    refine move.settles fits (sound.proxy.known own) ?_
    rintro id rfl phase
    exact permitted.1 id phase other n own under
  refine ⟨fun other n own under => ?_, fun other n own closing => ?_⟩
  · by_cases self : other = name
    · subst self
      rw [Proxy.put_self] at own under
      have going : (e.proxy.tunnels other).phase ≠ .returned := fun ended => under (move.returned ended)
      obtain same | ⟨id, -, rfl, rfl⟩ := move.stream
      · rw [same] at own
        exact (settles own going).claimed (sound.claims.claimed other n own going)
      · cases own
        exact .inr (by simp [Session.maps, Session.insert])
    · rw [Proxy.put_other _ self] at own under
      exact (settles own under).claimed (sound.claims.claimed other n own under)
  · by_cases self : other = name
    · subst self
      rw [Proxy.put_self] at own closing
      obtain ⟨before, same⟩ | ⟨k, mine, rfl⟩ := move.closes closing
      · rw [same] at own
        exact (settles own (by rw [before]; simp)).absent (sound.claims.closing other n own before)
      · cases own.symm.trans mine
        simp
    · rw [Proxy.put_other _ self] at own closing
      exact (settles own (by rw [closing]; simp)).absent (sound.claims.closing other n own closing)

/-- What a tunnel's step comes to once the tunnel has dropped what it removed. -/
theorem tunnel_shape {name : Nat} {act : TunnelAct} (sound : e.Sound)
    (stepped : e.step (.act (.tunnel name act)) = some e') :
    ∃ next t', Move e.proxy.session (e.proxy.tunnels name) act next t' ∧
      e'.dropping = e.dropping ∧ e'.proxy.tunnels = Function.update e.proxy.tunnels name t' ∧
      e'.proxy.session.streams = next.streams ∧ e'.proxy.session.arena = next.arena ∧
      e'.proxy.session.limbo = e.proxy.session.limbo ∧ e'.proxy.Sound := by
  obtain ⟨proxy, did, stepped⟩ := Option.bind_eq_some_iff.mp stepped
  have kept := sound.proxy.step did
  obtain ⟨⟨next, t'⟩, moved, rfl⟩ := Option.map_eq_some_iff.mp did
  have move := tunnelStep_move moved
  have limbo := move.limbo (sound.proxy.fits name)
  refine ⟨next, t', move, ?_⟩
  dsimp only at stepped
  split at stepped
  · rename_i grown
    obtain ⟨proxy, released, rfl⟩ := Option.map_eq_some_iff.mp stepped
    obtain ⟨tunnels, streams, arena, fewer⟩ := step_release released
    refine ⟨rfl, tunnels, streams, arena, ?_, kept.step released⟩
    have grown : e.proxy.session.limbo < next.limbo := grown
    have fewer : proxy.session.limbo + 1 = next.limbo := fewer
    dsimp only
    omega
  · rename_i same
    cases stepped
    have same : ¬ e.proxy.session.limbo < next.limbo := same
    refine ⟨rfl, rfl, rfl, rfl, ?_, kept⟩
    show next.limbo = _
    omega

private theorem sound_tunnel (sound : e.Sound) {name : Nat} {act : TunnelAct}
    (permitted : e.Permits (.act (.tunnel name act)))
    (stepped : e.step (.act (.tunnel name act)) = some e') : e'.Sound := by
  obtain ⟨next, t', move, dropping, tunnels, streams, arena, limbo, kept⟩ := tunnel_shape sound stepped
  refine ⟨kept, (claims_moved sound permitted move).of_eq tunnels streams arena, ?_⟩
  rw [limbo, sound.slots, dropping]

theorem Exits.Sound.step {act : ExitAct} (sound : e.Sound) (permitted : e.Permits act)
    (stepped : e.step act = some e') : e'.Sound := by
  cases act with
  | drop n =>
    obtain ⟨member, did⟩ := Option.ite_none_right_eq_some.mp stepped
    obtain ⟨proxy, released, rfl⟩ := Option.map_eq_some_iff.mp did
    obtain ⟨tunnels, streams, arena, fewer⟩ := step_release released
    refine ⟨sound.proxy.step released, sound.claims.of_eq tunnels streams arena, ?_⟩
    have slots := sound.slots
    dsimp only
    rw [List.length_erase_of_mem member]
    omega
  | act act =>
    cases act with
    | link act =>
      by_cases drops : act = .release
      · subst drops
        cases stepped
      · exact sound_linked sound drops permitted stepped
    | tunnel name act => exact sound_tunnel sound permitted stepped

/-- A stream whose send fails on its gate is not in the map any more. -/
private theorem failed_unmapped (valid : Valid s) {n : Nat} {stage : Sending} (failed : s.SendFails n stage)
    (queue : ∀ chunk rest, stage = .queue chunk rest → s.out.isOpen = false → s.maps n = false) :
    s.maps n = false := by
  cases stage with
  | acquire rest =>
    by_contra mapped
    have found : s.streams (s.arena n).id = some n := by simpa [Session.maps] using mapped
    rw [Session.SendFails, valid.gate found] at failed
    cases failed
  | queue chunk rest => exact queue chunk rest rfl failed
  | sent => exact failed.elim
  | broken => exact failed.elim

/-- The last piece of a tunnel with a stream leaves the id out of the map. -/
theorem returning_absent (sound : e.Sound) {name n : Nat} {act : TunnelAct}
    (permitted : e.Permits (.act (.tunnel name act)))
    (move : Move e.proxy.session (e.proxy.tunnels name) act next t')
    (running : (e.proxy.tunnels name).phase ≠ .returned) (returned : t'.phase = .returned)
    (own : t'.stream = some n) :
    next.streams (next.arena n).id = none ∧ n ∉ e.dropping := by
  have place := (sound.proxy.fits name).place
  have valid := sound.proxy.wired.valid
  cases move with
  | refused phase =>
    rw [phase] at place
    rw [place] at own
    cases own
  | giveUp stream phase =>
    rw [phase] at place
    cases place.symm.trans own
    refine ⟨by simp [Session.hangUp, Session.modify], (permitted.2 n place).1 ?_⟩
    rw [Session.Returns, phase]
    trivial
  | greeting stage after =>
    cases after <;> cases returned
    contradiction
  | rejected stage stream phase mine did =>
    cases mine.symm.trans own
    have failed := sendStep_fails did
    obtain ⟨drops, dead⟩ := permitted.2 n mine
    have unmapped := failed_unmapped valid failed fun chunk rest same => dead chunk rest (same ▸ phase)
    obtain absent | mapped := sound.claims.claimed name n mine running
    · have kept := (owes_sendStep did).keeps.trans (keeps_hangUp _ n)
      refine ⟨(kept.settles n).absent absent, drops ?_⟩
      rw [Session.Returns, phase]
      intro k same
      cases mine.symm.trans same
      exact failed
    · rw [unmapped] at mapped
      cases mapped
  | closed stream phase mine did =>
    cases mine.symm.trans own
    have kept := (owes_enqueue did).keeps.trans (keeps_hangUp _ n)
    refine ⟨(kept.settles n).absent (sound.claims.closing name n mine phase),
      (permitted.2 n mine).1 (by rw [Session.Returns, phase]; trivial)⟩
  | closeFails stream phase mine =>
    cases mine.symm.trans own
    refine ⟨((keeps_hangUp _ n).settles n).absent (sound.claims.closing name n mine phase),
      (permitted.2 n mine).1 (by rw [Session.Returns, phase]; trivial)⟩
  | _ => first
    | exact absurd returned running
    | cases returned

/-- A step in which a `serve_client` returns releases its stream. -/
def Exits.Leaves (e : Exits) (act : ExitAct) : Prop :=
  ∀ e', e.step act = some e' → ∀ name n, (e.proxy.tunnels name).phase ≠ .returned →
    (e'.proxy.tunnels name).phase = .returned → (e'.proxy.tunnels name).stream = some n →
      e'.Released n

/-- Only a tunnel's own step makes it return. -/
theorem leaves_of_permits {act : ExitAct} (sound : e.Sound) (permitted : e.Permits act) :
    e.Leaves act := by
  intro e' stepped name n running returned own
  have still (tunnels : e'.proxy.tunnels = e.proxy.tunnels) : e'.Released n := by
    rw [tunnels] at returned
    exact absurd returned running
  cases act with
  | drop k =>
    obtain ⟨-, did⟩ := Option.ite_none_right_eq_some.mp stepped
    obtain ⟨proxy, released, rfl⟩ := Option.map_eq_some_iff.mp did
    exact still (step_release released).1
  | act act =>
    cases act with
    | link act =>
      by_cases drops : act = .release
      · subst drops
        cases stepped
      · rw [link_shape e drops] at stepped
        obtain ⟨proxy, did, rfl⟩ := Option.map_eq_some_iff.mp stepped
        obtain ⟨session, -, rfl⟩ := Option.map_eq_some_iff.mp did
        exact still rfl
    | tunnel other act =>
      obtain ⟨next, t', move, dropping, tunnels, streams, arena, -, -⟩ := tunnel_shape sound stepped
      rw [tunnels] at returned own
      by_cases self : name = other
      · subst self
        rw [Function.update_self] at returned own
        rw [Exits.Released, streams, arena, dropping]
        exact returning_absent sound permitted move running returned own
      · rw [Function.update_of_ne self] at returned
        exact absurd returned running

/-- Every `serve_client` that returns, with Ok or with an error, leaves its id out of
the map and its slot in the budget, in every run in which ids under way are not
given out again, no tunnel overtakes the link in dropping its stream, and no
preamble is sent on a stream in the map to an outbox whose writer is gone. -/
theorem serve_client_releases_its_stream (maxStreams : Nat) (actions : List ExitAct) {t : Exits}
    (permitted : Meets Exits.step Exits.Permits (.start maxStreams) actions)
    (ran : run Exits.step (.start maxStreams) actions = some t) :
    Meets Exits.step Exits.Leaves (.start maxStreams) actions ∧
      t.proxy.session.limbo = t.dropping.length := by
  have preserved (e : Exits) (act : ExitAct) (e' : Exits) (sound : e.Sound) (fine : e.Permits act)
      (stepped : e.step act = some e') : e'.Sound := sound.step fine stepped
  refine ⟨?_, (run_preserves_where Exits.Sound preserved (.start maxStreams) permitted ran).slots⟩
  exact permitted.imp_where Exits.Sound preserved
    (fun e act e' sound fine _ => leaves_of_permits sound fine) (.start maxStreams) ran

/-- No stream has had the id. -/
private def Session.unused (s : Session) (id : UInt32) : Bool :=
  (List.range s.created).all fun n => (s.arena n).id ≠ id

/-- No id comes twice, the outbox is live and nothing waits to be dropped. -/
private def Exits.calm (e : Exits) : ExitAct → Bool
  | .act (.link .advance) =>
    match e.proxy.session.reader with
    | .accepting id => e.proxy.session.unused id
    | _ => true
  | .act (.tunnel name .proceed) =>
    match (e.proxy.tunnels name).phase with
    | .opening (.insert id) => e.proxy.session.unused id
    | _ => e.dropping = [] && e.proxy.session.out.isOpen
  | _ => true

private theorem permits_of_calm {act : ExitAct} (sound : e.Sound) (calm : e.calm act = true) :
    e.Permits act := by
  have unclaimed {id : UInt32} (unused : e.proxy.session.unused id = true) : e.proxy.Unclaimed id := by
    intro name n own _
    simpa using List.all_eq_true.mp unused n (List.mem_range.mpr (sound.proxy.known own))
  unfold Exits.Permits
  split
  · intro id reading
    rw [Exits.calm, reading] at calm
    exact unclaimed calm
  · rename_i name
    refine ⟨fun id phase => ?_, fun n own => ?_⟩
    · rw [Exits.calm, phase] at calm
      exact unclaimed calm
    · unfold Exits.calm at calm
      dsimp only at calm
      split at calm
      · rename_i id phase
        have place := (sound.proxy.fits name).place
        rw [phase] at place
        rw [place] at own
        cases own
      · simp only [Bool.and_eq_true, decide_eq_true_eq] at calm
        refine ⟨fun _ => by rw [calm.1]; exact List.not_mem_nil, fun _ _ _ dead => ?_⟩
        rw [calm.2] at dead
        cases dead
  · trivial

private def clientHead : Bytes := List.replicate 37 7

/-- A bridge closes the stream before the preamble has its credit. -/
private def closedEarly : List ExitAct :=
  [.act (.tunnel 0 (.begin clientHead)), .act (.tunnel 0 .proceed), .act (.tunnel 0 .proceed),
    .act (.tunnel 0 .proceed), .act (.tunnel 0 .proceed),
    .act (.link (.recv [0, 0, 0, 1, 2, 0, 0, 0])), .drop 0, .act (.tunnel 0 .proceed)]

theorem serve_client_releases_its_stream_closed :
    ∃ t, run Exits.step (.start 1) closedEarly = some t ∧ (t.proxy.tunnels 0).phase = .returned ∧
      Meets Exits.step Exits.Leaves (.start 1) closedEarly := by
  have checked : ((run Exits.step (.start 1) closedEarly).any fun t =>
      decide ((t.proxy.tunnels 0).phase = .returned)) = true ∧
      Meets Exits.step (fun e act => e.calm act = true) (.start 1) closedEarly := by decide +kernel
  obtain ⟨t, ran, returned⟩ := run_reaches checked.1
  have permitted : Meets Exits.step Exits.Permits (.start 1) closedEarly :=
    checked.2.imp_where Exits.Sound
      (fun e act e' sound calm stepped => sound.step (permits_of_calm sound calm) stepped)
      (fun e act e' sound calm _ => permits_of_calm sound calm) (.start 1) ran
  exact ⟨t, ran, returned, (serve_client_releases_its_stream 1 closedEarly permitted ran).1⟩

/-- The writer dies while the preamble waits for its place in the outbox. -/
private def writerDies : List ExitAct :=
  [.act (.tunnel 0 (.begin clientHead)), .act (.tunnel 0 .proceed), .act (.tunnel 0 .proceed),
    .act (.tunnel 0 .proceed), .act (.tunnel 0 .proceed), .act (.tunnel 0 .proceed),
    .act (.link .writerEnds)]

/-- `tx.send(head).await?` returns with the stream in the map, and its slot in use. -/
theorem failed_preamble_keeps_its_stream :
    ∃ actions e, run Exits.step (.start 1) actions = some e ∧
      ¬ e.Leaves (.act (.tunnel 0 .proceed)) := by
  have reached : ((run Exits.step (.start 1) writerDies).any fun e =>
      decide ((e.proxy.tunnels 0).phase ≠ .returned) &&
        (e.step (.act (.tunnel 0 .proceed))).any fun e' =>
          decide ((e'.proxy.tunnels 0).phase = .returned ∧ (e'.proxy.tunnels 0).stream = some 0 ∧
            e'.proxy.session.streams (e'.proxy.session.arena 0).id = some 0)) = true := by
    decide +kernel
  obtain ⟨e, ran, after⟩ := (Option.any_eq_true _ _).mp reached
  rw [Bool.and_eq_true, decide_eq_true_eq] at after
  obtain ⟨running, after⟩ := after
  obtain ⟨e', stepped, ends⟩ := (Option.any_eq_true _ _).mp after
  simp only [decide_eq_true_eq] at ends
  refine ⟨writerDies, e, ran, fun leaves => ?_⟩
  have released := (leaves e' stepped 0 0 running ends.1 ends.2.1).1
  rw [ends.2.2] at released
  cases released

end DshProxy.Mux

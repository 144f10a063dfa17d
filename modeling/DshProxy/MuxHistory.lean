import DshProxy.MuxPair
import DshProxy.StreamIds

/-! What the two ends of a link have said about one stream id. The opener adds
OPEN first and once, the accepting end adds nothing about a stream it has not
been told of; so what is on the link about a stream always belongs to the one
stream that was given the id. -/
namespace DshProxy.Mux
open Sync Wire Transitions

/-- The frames about one stream. -/
def track (id : UInt32) (frames : List Frame) : List Frame := frames.filter (·.id = id)

theorem track_append (id : UInt32) (first second : List Frame) :
    track id (first ++ second) = track id first ++ track id second :=
  List.filter_append ..

theorem track_cons (id : UInt32) (frame : Frame) (rest : List Frame) :
    track id (frame :: rest) = if frame.id = id then frame :: track id rest else track id rest := by
  simp [track, List.filter_cons]

theorem track_ne_nil {id : UInt32} {frames : List Frame} :
    track id frames ≠ [] ↔ ∃ frame ∈ frames, frame.id = id := by
  simp [track]

theorem track_of_front {id : UInt32} {frames all : List Frame} (front : frames <+: all)
    (some : track id frames ≠ []) : track id all ≠ [] := by
  obtain ⟨frame, member, named⟩ := track_ne_nil.mp some
  exact track_ne_nil.mpr ⟨frame, front.subset member, named⟩

/-- A stream begins with its only OPEN. -/
def Opens : List Frame → Prop
  | [] => True
  | first :: rest => first.kind = .opening ∧ ∀ frame ∈ rest, frame.kind ≠ .opening

theorem Opens.behind {frames more : List Frame} (opens : Opens (frames ++ more))
    (begun : frames ≠ []) : ∀ frame ∈ more, frame.kind ≠ .opening := by
  intro frame member
  cases frames with
  | nil => exact absurd rfl begun
  | cons first rest => exact opens.2 frame (List.mem_append_right rest member)

theorem Opens.front {frames more : List Frame} (opens : Opens (frames ++ more)) : Opens frames := by
  cases frames with
  | nil => trivial
  | cons first rest =>
    exact ⟨opens.1, fun frame member => opens.2 frame (List.mem_append_left more member)⟩

theorem Opens.snoc {frames : List Frame} {frame : Frame} (opens : Opens frames)
    (begins : frame.kind = .opening ↔ frames = []) : Opens (frames ++ [frame]) := by
  cases frames with
  | nil => exact ⟨begins.mpr rfl, by simp⟩
  | cons first rest =>
    refine ⟨opens.1, fun other member => ?_⟩
    obtain old | new := List.mem_append.mp member
    · exact opens.2 other old
    · obtain rfl := List.mem_singleton.mp new
      intro kind
      cases begins.mp kind

theorem Opens.last {frames : List Frame} {frame : Frame} (opens : Opens (frames ++ [frame])) :
    frame.kind = .opening ↔ frames = [] := by
  constructor
  · intro kind
    by_contra begun
    exact opens.behind begun frame (by simp) kind
  · rintro rfl
    exact opens.1

/-- The stream id the reader is busy with. -/
def Reader.names : Reader → Option UInt32
  | .accepting id | .offer id _ _ | .overflow id _ | .refuse id _ => some id
  | _ => none

theorem Reader.replies_names {r : Reader} (replies : r.replies = some frame) :
    frame.kind ≠ .opening ∧ (frame.id = 0 ∨ r.names = some frame.id) := by
  cases r <;> simp only [Reader.replies, reduceCtorEq, Option.some.injEq] at replies
  · subst replies
    exact ⟨by simp [Frame.control], .inl rfl⟩
  · subst replies
    exact ⟨by simp [Frame.control], .inr rfl⟩

variable {s s' : Session} {t t' : Tunnel} {id : UInt32}

/-- The outbox gets at most one frame, of a given sort. -/
def Adds (sort : Frame → Prop) (s s' : Session) : Prop :=
  s'.out.accepted = s.out.accepted ∨
    ∃ frame, sort frame ∧ s'.out.accepted = s.out.accepted ++ [frame]

theorem Adds.nothing {sort : Frame → Prop} (same : s'.out.accepted = s.out.accepted) :
    Adds sort s s' := .inl same

theorem Adds.one {sort : Frame → Prop} (holds : sort frame)
    (more : s'.out.accepted = s.out.accepted ++ [frame]) : Adds sort s s' := .inr ⟨frame, holds, more⟩

theorem Adds.front {sort : Frame → Prop} (adds : Adds sort s s') :
    s.out.accepted <+: s'.out.accepted := by
  obtain same | ⟨frame, -, more⟩ := adds
  · exact same ▸ List.prefix_rfl
  · rw [more]
    exact List.prefix_append _ _

/-- Every frame of the outbox is an old one or of the sort. -/
theorem Adds.member {sort : Frame → Prop} (adds : Adds sort s s')
    (member : frame ∈ s'.out.accepted) : frame ∈ s.out.accepted ∨ sort frame := by
  obtain same | ⟨new, holds, more⟩ := adds
  · rw [same] at member
    exact .inl member
  · rw [more] at member
    obtain old | last := List.mem_append.mp member
    · exact .inl old
    · obtain rfl := List.mem_singleton.mp last
      exact .inr holds

theorem Adds.opens {sort : Frame → Prop} (adds : Adds sort s s')
    (opens : Opens (track id s.out.accepted))
    (begins : ∀ frame, sort frame → frame.id = id →
      (frame.kind = .opening ↔ track id s.out.accepted = [])) :
    Opens (track id s'.out.accepted) := by
  obtain same | ⟨frame, holds, more⟩ := adds
  · rw [same]
    exact opens
  · rw [more, track_append, track_cons]
    split
    · rename_i named
      exact opens.snoc (begins frame holds named)
    · simpa [track] using opens

/-- A stream that has not begun is not begun by frames about others. -/
theorem Adds.track {sort : Frame → Prop} (adds : Adds sort s s')
    (begun : ∀ frame, sort frame → frame.id = id → track id s.out.accepted ≠ []) :
    track id s'.out.accepted = [] ↔ track id s.out.accepted = [] := by
  refine not_iff_not.mp ⟨fun some => ?_, track_of_front adds.front⟩
  obtain ⟨frame, member, named⟩ := track_ne_nil.mp some
  obtain old | fresh := adds.member member
  · exact track_ne_nil.mpr ⟨frame, old, named⟩
  · exact begun frame fresh named

theorem enqueue_adds (queued : s.enqueue frame = some s') :
    s'.out.accepted = s.out.accepted ++ [frame] := by
  obtain ⟨rfl, -, -⟩ := enqueue_eq queued
  rfl

/-- All the link tasks say is what the reader answers. -/
theorem step_adds (stepped : s.step act = some s') :
    Adds (fun frame => s.reader.replies = some frame) s s' := by
  cases step_move stepped with
  | heard plain frame _ _ _ did => exact .nothing (by rw [did.out])
  | evicts id => exact .nothing (by simp)
  | replies frame reading did =>
    have more := enqueue_adds did
    exact .one reading more
  | _ => exact .nothing rfl

theorem SendMove.adds {sort : Frame → Prop} (move : SendMove s n stage s' next)
    (holds : ∀ chunk, sort ⟨(s.arena n).id, .data, chunk⟩) : Adds sort s s' := by
  cases move with
  | queues chunk rest queued => exact .one (holds chunk) (enqueue_adds queued)
  | _ => exact .nothing rfl

theorem SendMove.streams (move : SendMove s n stage s' next) : s'.streams = s.streams := by
  cases move with
  | queues chunk rest queued => exact (alike_enqueue queued).streams
  | _ => rfl

theorem SendMove.quiet (move : SendMove s n stage s' next) :
    Quiet s s' ∧ s'.created = s.created := by
  cases move with
  | spends => exact ⟨quiet_modify _ _ _ rfl rfl rfl fun opened => opened, rfl⟩
  | queues chunk rest queued => exact ⟨quiet_enqueue queued, (alike_enqueue queued).created⟩
  | _ => exact ⟨.refl _, rfl⟩

theorem step_names (stepped : s.step act = some s') (tasks : act.isLive = true)
    (named : s'.reader.names = some id) : s.reader.names = some id := by
  cases step_move stepped with
  | heard => cases tasks
  | overflows other stream body reading =>
    rw [reading]
    exact named
  | evicts other stream reading =>
    rw [reading]
    exact named
  | takeBatch => exact named
  | feed => exact named
  | release => exact named
  | shutdownClear => cases tasks
  | shutdownAbort => cases tasks
  | writerEnds => cases tasks
  | _ => cases named

theorem Heard.created (did : Heard s frame s') : s'.created = s.created := by
  cases did with
  | closes => exact removeAndClose_created _ _
  | _ => rfl

/-- A link step makes no stream but the one the reader admits. -/
theorem step_known (stepped : s.step act = some s') (known : n < s'.created) :
    (n < s.created ∧ (s'.arena n).id = (s.arena n).id) ∨
      (n = s.created ∧ s.reader = .accepting (s'.arena n).id ∧ s'.reader = .idle) := by
  by_cases older : n < s.created
  · exact .inl ⟨older, (step_named stepped older).1⟩
  have last (same : s'.created = s.created + 1) : n = s.created := by omega
  cases step_move stepped with
  | heard plain frame _ _ _ did =>
    rw [did.created] at known
    exact absurd known older
  | admits id reading =>
    obtain rfl := last rfl
    exact .inr ⟨rfl, by simpa [Session.insert] using reading, rfl⟩
  | admitsNobody id reading =>
    obtain rfl := last rfl
    exact .inr ⟨rfl, by simpa [Session.insert, Session.modify] using reading, rfl⟩
  | evicts id =>
    have same := removeAndClose_created s id
    exact absurd (same ▸ known) older
  | replies frame _ did =>
    have same := (alike_enqueue did).created
    exact absurd (same ▸ known) older
  | _ => exact absurd known older

theorem Heard.names (did : Heard s frame s') (idle : s.reader = .idle)
    (named : s'.reader.names = some id) : frame.id = id ∧ id ≠ 0 := by
  cases did with
  | keepalive => cases named
  | opens stream =>
    cases named
    exact ⟨rfl, stream⟩
  | overBudget stream =>
    cases named
    exact ⟨rfl, stream⟩
  | data aim stream =>
    cases named
    exact ⟨rfl, stream⟩
  | grants =>
    rw [show _ = Reader.idle from idle] at named
    cases named
  | closes =>
    rw [(quiet_removeAndClose _ _).reader, show _ = Reader.idle from idle] at named
    cases named
  | ignores =>
    rw [show _ = Reader.idle from idle] at named
    cases named

/-- The accepting end's users speak of streams they have, and open none. -/
def Session.Answers (s : Session) (frame : Frame) : Prop :=
  frame.kind ≠ .opening ∧ ∃ n < s.created, frame.id = (s.arena n).id

theorem closeStream_adds (closed : s.closeStream n sent = some s') (known : n < s.created) :
    Adds s.Answers s s' := by
  obtain ⟨-, queued⟩ | ⟨-, rfl⟩ := closeStream_cases closed
  · have more := enqueue_adds queued
    rw [removeAndClose_out] at more
    exact .one ⟨by simp [Frame.control], n, known, rfl⟩ more
  · exact .nothing (by rw [removeAndClose_out])

theorem AcceptorMove.adds {a b : Acceptor} (move : AcceptorMove a act b) :
    Adds a.session.Answers a.session b.session := by
  cases move with
  | proceed n next known did => exact did.adds fun _ => ⟨by simp, n, known, rfl⟩
  | recv n chunk _ did => exact .nothing (by rw [take_out did])
  | grants n bytes known did =>
    exact .one ⟨by simp [Frame.grant], n, known, rfl⟩ (enqueue_adds did)
  | shutdown n sent known did => exact closeStream_adds did known
  | drop n sent known did =>
    have more := closeStream_adds did known
    exact more
  | _ => exact .nothing rfl

/-- The users of the accepting end leave the reader and the ids alone. -/
theorem AcceptorMove.quiet {a b : Acceptor} (move : AcceptorMove a act b) :
    Quiet a.session b.session ∧ b.session.created = a.session.created := by
  have closes {s s' : Session} {n : Nat} {sent : Bool} (did : s.closeStream n sent = some s') :
      Quiet s s' ∧ s'.created = s.created := by
    have removed := quiet_removeAndClose s (s.arena n).id
    have same := removeAndClose_created s (s.arena n).id
    obtain ⟨-, queued⟩ | ⟨-, rfl⟩ := closeStream_cases did
    · exact ⟨removed.trans (quiet_enqueue queued), (alike_enqueue queued).created.trans same⟩
    · exact ⟨removed, same⟩
  cases move with
  | proceed n next known did => exact did.quiet
  | recv n chunk _ did => exact ⟨quiet_take did, (alike_take did).created⟩
  | grants n bytes _ did => exact ⟨quiet_enqueue did, (alike_enqueue did).created⟩
  | shutdown n sent _ did => exact closes did
  | drop n sent _ did =>
    obtain ⟨quiet, created⟩ := closes did
    exact ⟨quiet.trans (quiet_hangUp _ n), created⟩
  | _ => exact ⟨.refl _, rfl⟩

/-- What a tunnel adds about its stream: OPEN, and only that, while the open is
on its way. -/
def Session.Speaks (s : Session) (t : Tunnel) (frame : Frame) : Prop :=
  ∃ n, t.stream = some n ∧ frame.id = (s.arena n).id ∧
    (frame.kind = .opening ↔ t.phase = .opening (.announce n))

theorem SendMove.speaks (move : SendMove s n stage s' next) (own : t.stream = some n)
    (opened : t.phase ≠ .opening (.announce n)) : Adds (s.Speaks t) s s' :=
  move.adds fun _ => ⟨n, own, rfl, by simp, fun phase => absurd phase opened⟩

theorem Move.adds (move : Move s t act s' t') (fits : t.Fits) : Adds (s.Speaks t) s s' := by
  have place := fits.place
  have early := fits.early
  cases move with
  | reserve _ did =>
    obtain ⟨-, same⟩ := Option.ite_none_left_eq_some.mp did
    cases same
    exact .nothing rfl
  | announce n phase did =>
    rw [phase] at place
    exact .one ⟨n, place, rfl, fun _ => phase, fun _ => rfl⟩ (enqueue_adds did)
  | giveUp n => exact .nothing (by simp [Session.hangUp, Session.modify])
  | greeting stage next n phase own did => exact (sendStep_move did).speaks own (by simp [phase])
  | rejected stage n phase own did => exact (sendStep_move did).speaks own (by simp [phase])
  | closed n phase own did =>
    have more := enqueue_adds did
    exact .one ⟨n, own, rfl, by simp [Frame.control, phase]⟩ more
  | uplinkSend stage next n sending own did =>
    refine (sendStep_move did).speaks own fun phase => ?_
    rw [phase] at early
    rw [early.1] at sending
    cases sending
  | recv n chunk _ _ _ did => exact .nothing (by rw [take_out did])
  | grant n running own _ did =>
    exact .one ⟨n, own, rfl, by simp [Frame.grant, running]⟩ (enqueue_adds did)
  | leave n => exact .nothing (by simp)
  | _ => exact .nothing rfl

/-- At most one stream of the session has had the id. -/
def Session.Sole (s : Session) (id : UInt32) : Prop :=
  ∀ n k, n < s.created → k < s.created → (s.arena n).id = id → (s.arena k).id = id → n = k

/-- What the opener has said about an id. -/
structure Proxy.Told (p : Proxy) (id : UInt32) : Prop where
  reader : ∀ other, p.session.reader ≠ .accepting other
  opens : Opens (track id p.session.out.accepted)
  origin : track id p.session.out.accepted ≠ [] →
    ∃ n < p.session.created, (p.session.arena n).id = id
  announced : ∀ name n, (p.tunnels name).stream = some n → (p.session.arena n).id = id →
    ((p.tunnels name).phase = .opening (.announce n) ↔ track id p.session.out.accepted = [])
  names : p.session.reader.names = some id → track id p.session.out.accepted ≠ []

/-- What the accepting end has learnt about an id. -/
structure Session.Learnt (s : Session) (id : UInt32) : Prop where
  streams : ∀ n < s.created, (s.arena n).id = id → track id s.log ≠ []
  names : s.reader.names = some id → track id s.log ≠ []
  said : track id s.out.accepted ≠ [] → track id s.log ≠ []
  admits : s.reader = .accepting id → (∀ n < s.created, (s.arena n).id ≠ id) ∧
    track id s.out.accepted = [] ∧ (track id s.log).length = 1
  sole : s.Sole id

variable {p q : Proxy}

theorem told_link (sound : p.Sound) (told : p.Told id) (stream : id ≠ 0)
    (stepped : p.session.step act = some s') (tasks : act.isLive = true) :
    ({ p with session := s' } : Proxy).Told id := by
  have adds := step_adds stepped
  have later (frame : Frame) (replies : p.session.reader.replies = some frame)
      (named : frame.id = id) : frame.kind ≠ .opening ∧ track id p.session.out.accepted ≠ [] := by
    obtain ⟨kind, zero | names⟩ := Reader.replies_names replies
    · exact absurd (named.symm.trans zero) stream
    · exact ⟨kind, told.names (named ▸ names)⟩
  have begun := adds.track fun frame replies named => (later frame replies named).2
  have created := step_creates stepped told.reader
  have named {n : Nat} (known : n < p.session.created) := (step_named stepped known).1
  refine ⟨fun other admits => ?_, ?_, fun some => ?_, fun name n own same => ?_, fun names => ?_⟩
  · obtain before | ⟨plain, -, rfl, -⟩ := step_admits stepped admits
    · exact told.reader other before
    · cases tasks
  · refine adds.opens told.opens fun frame replies named => ?_
    obtain ⟨kind, some⟩ := later frame replies named
    exact ⟨fun opening => absurd opening kind, fun none => absurd none some⟩
  · obtain ⟨n, known, same⟩ := told.origin fun none => some (begun.mpr none)
    exact ⟨n, created ▸ known, (named known).trans same⟩
  · rw [told.announced name n own ((named (sound.known own)).symm.trans same)]
    exact begun.symm
  · intro none
    exact told.names (step_names stepped tasks names) (begun.mp none)

theorem told_heard (sound : p.Sound) (told : p.Told id) (idle : p.session.reader = .idle)
    (did : Heard p.session frame s') (answer : frame.kind ≠ .opening)
    (begun : frame.id = id → track id p.session.out.accepted ≠ [])
    (stepped : p.session.step act = some s') : ({ p with session := s' } : Proxy).Told id := by
  have out := did.out
  have named {n : Nat} (known : n < p.session.created) := (step_named stepped known).1
  refine ⟨fun other admits => ?_, ?_, fun some => ?_, fun name n own same => ?_, fun names => ?_⟩
  · cases did with
    | opens _ kind => exact answer kind
    | grants => exact told.reader other admits
    | closes =>
      rw [(quiet_removeAndClose _ _).reader] at admits
      exact told.reader other admits
    | ignores => exact told.reader other admits
    | _ => cases admits
  · dsimp only
    rw [out]
    exact told.opens
  · dsimp only at some ⊢
    rw [out] at some
    obtain ⟨n, known, same⟩ := told.origin some
    exact ⟨n, did.created ▸ known, (named known).trans same⟩
  · dsimp only
    rw [out]
    exact told.announced name n own ((named (sound.known own)).symm.trans same)
  · dsimp only
    rw [out]
    exact begun (did.names idle names).1

/-- A tunnel that has its stream announces it once, before anything else. -/
theorem Move.announces (move : Move s t act s' t') (fits : t.Fits) (opened : s.out.isOpen = true)
    (own : t.stream = some n) :
    t'.phase ≠ .opening (.announce n) ∧ (t.phase = .opening (.announce n) →
      s'.out.accepted = s.out.accepted ++ [.control (s.arena n).id .opening]) := by
  have place := fits.place
  have early := fits.early
  have busy {next : Uplink} (stands : t.uplink = next) (off : next ≠ .off) :
      t.phase ≠ .opening (.announce n) := by
    intro phase
    rw [phase] at early
    exact off (stands.symm.trans early.1)
  cases move with
  | begin head idle =>
    rw [idle] at place
    rw [place] at own
    cases own
  | reserve phase => exact ⟨by simp, by simp [phase]⟩
  | refused phase => exact ⟨by simp, by simp [phase]⟩
  | allocate phase => exact ⟨by simp, by simp [phase]⟩
  | insert id phase =>
    rw [phase] at place
    rw [place] at own
    cases own
  | announce stream phase did =>
    rw [phase] at place
    obtain rfl : stream = n := Option.some.inj (place.symm.trans own)
    exact ⟨by simp, fun _ => enqueue_adds did⟩
  | announceFails stream phase dead =>
    rw [dead] at opened
    cases opened
  | giveUp stream phase => exact ⟨by simp, by simp [phase]⟩
  | greeting stage next stream phase =>
    exact ⟨by cases next <;> simp [Tunnel.greeted], by simp [phase]⟩
  | rejected stage stream phase => exact ⟨by simp, by simp [phase]⟩
  | closed stream phase => exact ⟨by simp, by simp [phase]⟩
  | closeFails stream phase => exact ⟨by simp, by simp [phase]⟩
  | read bytes reading =>
    have later := busy reading (by simp)
    exact ⟨later, fun phase => absurd phase later⟩
  | readEnds reading =>
    have later := busy reading (by simp)
    exact ⟨later, fun phase => absurd phase later⟩
  | uplinkSend stage next stream sending =>
    have later := busy sending (by simp)
    exact ⟨later, fun phase => absurd phase later⟩
  | recv stream chunk running => exact ⟨by simp [running], by simp [running]⟩
  | recvEnds stream running => exact ⟨by simp [running], by simp [running]⟩
  | write stream count rest size running => exact ⟨by simp [running], by simp [running]⟩
  | writeFails stream rest size running => exact ⟨by simp [running], by simp [running]⟩
  | wrote stream size running => exact ⟨by simp [running], by simp [running]⟩
  | grant stream running => exact ⟨by simp [running], by simp [running]⟩
  | grantFails stream running => exact ⟨by simp [running], by simp [running]⟩
  | shutdownDone unwritten running => exact ⟨by simp [running], by simp [running]⟩
  | leave stream running => exact ⟨by simp, by simp [running]⟩

private theorem told_insert (sound : p.Sound) (told : p.Told id) {new : UInt32}
    (sole : (p.session.insert new).Sole id) :
    (p.put name (p.session.insert new) { p.tunnels name with
      phase := .opening (.announce p.session.created), stream := some p.session.created }).Told id := by
  have last : ((p.session.insert new).arena p.session.created).id = new := by simp [Session.insert]
  refine ⟨told.reader, told.opens, fun some => ?_, fun other n own same => ?_, told.names⟩
  · obtain ⟨n, known, same⟩ := told.origin some
    refine ⟨n, Nat.lt_succ_of_lt known, ?_⟩
    rw [Proxy.put_session, arena_insert _ new known]
    exact same
  · rw [Proxy.put_session] at same
    by_cases mine : other = name
    · subst mine
      rw [Proxy.put_self] at own ⊢
      obtain rfl : p.session.created = n := Option.some.inj own
      refine ⟨fun _ => ?_, fun _ => rfl⟩
      by_contra some
      obtain ⟨k, known, older⟩ := told.origin some
      rw [← arena_insert _ new known] at older
      exact Nat.ne_of_lt known
        (sole k _ (Nat.lt_succ_of_lt known) (Nat.lt_succ_self _) older same)
    · rw [Proxy.put_other _ mine] at own ⊢
      rw [arena_insert _ new (sound.known own)] at same
      exact told.announced other n own same

theorem told_move (sound : p.Sound) (told : p.Told id) (opened : p.session.out.isOpen = true)
    (move : Move p.session (p.tunnels name) act s' t') (sole : s'.Sole id) :
    (p.put name s' t').Told id := by
  have quiet := move.quiet
  have adds := move.adds (sound.fits name)
  obtain kept | ⟨new, phase, rfl, rfl⟩ := move.stream
  · have known {n : Nat} (below : n < p.session.created) : n < s'.created :=
      Nat.lt_of_lt_of_le below quiet.created
    -- frames about the id come from the one tunnel that serves it
    have mine {other n k : Nat} (own : (p.tunnels other).stream = some n)
        (same : (p.session.arena n).id = id) (speaks : (p.tunnels name).stream = some k)
        (about : (p.session.arena k).id = id) : other = name := by
      have one : n = k := by
        refine sole n k (known (sound.known own)) (known (sound.known speaks)) ?_ ?_
        · rw [quiet.id n (sound.known own)]
          exact same
        · rw [quiet.id k (sound.known speaks)]
          exact about
      subst one
      exact sound.apart own speaks
    refine ⟨fun other admits => ?_, ?_, fun some => ?_, fun other n own same => ?_, fun names => ?_⟩
    · rw [Proxy.put_session, quiet.reader] at admits
      exact told.reader other admits
    · refine adds.opens told.opens ?_
      rintro frame ⟨n, own, named, begins⟩ about
      rw [begins]
      exact told.announced name n own (named.symm.trans about)
    · obtain ⟨frame, member, named⟩ := track_ne_nil.mp some
      obtain old | ⟨n, own, about, -⟩ := adds.member member
      · obtain ⟨n, below, same⟩ := told.origin (track_ne_nil.mpr ⟨frame, old, named⟩)
        exact ⟨n, known below, (quiet.id n below).trans same⟩
      · have below := sound.known own
        exact ⟨n, known below, (quiet.id n below).trans (about.symm.trans named)⟩
    · by_cases self : other = name
      · subst self
        rw [Proxy.put_self] at own ⊢
        rw [kept] at own
        have same := (quiet.id n (sound.known own)).symm.trans same
        obtain ⟨later, announces⟩ := move.announces (sound.fits other) opened own
        refine ⟨fun phase => absurd phase later, fun none => ?_⟩
        by_cases first : (p.tunnels other).phase = .opening (.announce n)
        · rw [Proxy.put_session, announces first, track_append, track_cons] at none
          simp [Frame.control, same] at none
        · have before := (told.announced other n own same).not.mp first
          exact absurd none (track_of_front adds.front before)
      · rw [Proxy.put_other _ self] at own ⊢
        have same := (quiet.id n (sound.known own)).symm.trans same
        rw [told.announced other n own same]
        refine (adds.track ?_).symm
        rintro frame ⟨k, speaks, named, -⟩ about
        exact absurd (mine own same speaks (named.symm.trans about)) self
    · rw [Proxy.put_session, quiet.reader] at names
      exact track_of_front adds.front (told.names names)
  · exact told_insert sound told sole

/-- Only what a session hears teaches it about the id, and it speaks of nothing
it has not been told of. -/
theorem Session.Learnt.of_adds (learnt : s.Learnt id) (log : s'.log = s.log)
    (adds : Adds (fun frame => frame.id = id → track id s.log ≠ [] ∧ s.reader ≠ .accepting id) s s')
    (known : ∀ n < s'.created, (s'.arena n).id = id → (n < s.created ∧ (s.arena n).id = id) ∨
      (n = s.created ∧ s.reader = .accepting id ∧ s'.reader = .idle))
    (names : s'.reader.names = some id → s.reader.names = some id)
    (admits : s'.reader = .accepting id → s.reader = .accepting id) : s'.Learnt id := by
  refine ⟨fun n below same => ?_, fun named => ?_, fun some => ?_, fun accepting => ?_,
    fun n k first second one two => ?_⟩
  · rw [log]
    obtain ⟨older, was⟩ | ⟨-, accepting, -⟩ := known n below same
    · exact learnt.streams n older was
    · exact learnt.names (by rw [accepting]; rfl)
  · rw [log]
    exact learnt.names (names named)
  · rw [log]
    obtain ⟨frame, member, named⟩ := track_ne_nil.mp some
    obtain old | fresh := adds.member member
    · exact learnt.said (track_ne_nil.mpr ⟨frame, old, named⟩)
    · exact (fresh named).1
  · obtain ⟨absent, silent, once⟩ := learnt.admits (admits accepting)
    refine ⟨fun n below same => ?_, ?_, by rw [log]; exact once⟩
    · obtain ⟨older, was⟩ | ⟨-, -, idle⟩ := known n below same
      · exact absent n older was
      · rw [accepting] at idle
        cases idle
    · by_contra some
      obtain ⟨frame, member, named⟩ := track_ne_nil.mp some
      obtain old | fresh := adds.member member
      · exact track_ne_nil.mpr ⟨frame, old, named⟩ silent
      · exact (fresh named).2 (admits accepting)
  · obtain ⟨older, was⟩ | ⟨rfl, accepting, -⟩ := known n first one <;>
      obtain ⟨older', was'⟩ | ⟨rfl, accepting', -⟩ := known k second two
    · exact learnt.sole n k older older' was was'
    · exact absurd was ((learnt.admits accepting').1 n older)
    · exact absurd was' ((learnt.admits accepting).1 k older')
    · rfl

theorem learnt_link (learnt : s.Learnt id) (stream : id ≠ 0) (stepped : s.step act = some s')
    (tasks : act.isLive = true) : s'.Learnt id := by
  refine learnt.of_adds (extends_step stepped tasks).log ?_ ?_ (step_names stepped tasks) ?_
  · obtain same | ⟨frame, replies, more⟩ := step_adds stepped
    · exact .nothing same
    · obtain ⟨-, zero | names⟩ := Reader.replies_names replies
      · exact .one (fun named => absurd (named.symm.trans zero) stream) more
      · refine .one (fun named => ⟨learnt.names (named ▸ names), fun accepting => ?_⟩) more
        rw [accepting] at replies
        cases replies
  · intro n below same
    obtain ⟨older, kept⟩ | ⟨last, accepting, idle⟩ := step_known stepped below
    · exact .inl ⟨older, kept.symm.trans same⟩
    · exact .inr ⟨last, same ▸ accepting, idle⟩
  · intro accepting
    obtain before | ⟨plain, -, rfl, -⟩ := step_admits stepped accepting
    · exact before
    · cases tasks

theorem learnt_user {a b : Acceptor} (learnt : a.session.Learnt id) (move : AcceptorMove a act b) :
    b.session.Learnt id := by
  obtain ⟨quiet, created⟩ := move.quiet
  refine learnt.of_adds quiet.log ?_ ?_ ?_ ?_
  · obtain same | ⟨frame, ⟨-, n, known, about⟩, more⟩ := move.adds
    · exact .nothing same
    · refine .one (fun named => ?_) more
      have same := about.symm.trans named
      exact ⟨learnt.streams n known same, fun accepting => (learnt.admits accepting).1 n known same⟩
  · intro n below same
    rw [created] at below
    exact .inl ⟨below, (quiet.id n below).symm.trans same⟩
  · rw [quiet.reader]
    exact fun named => named
  · rw [quiet.reader]
    exact fun accepting => accepting

theorem learnt_heard (learnt : s.Learnt id) (idle : s.reader = .idle) (did : Heard s frame s')
    (stepped : s.step act = some s') (opens : Opens (track id (s.log ++ [frame]))) :
    s'.Learnt id := by
  have log := did.log
  have out := did.out
  have grown : s.log <+: s'.log := by
    rw [log]
    exact List.prefix_append _ _
  have known {n : Nat} (below : n < s'.created) : n < s.created := did.created ▸ below
  have named {n : Nat} (below : n < s'.created) := (step_named stepped (known below)).1
  refine ⟨fun n below same => ?_, fun names => ?_, fun some => ?_, fun accepting => ?_,
    fun n k first second one two => ?_⟩
  · exact track_of_front grown (learnt.streams n (known below) ((named below).symm.trans same))
  · refine track_ne_nil.mpr ⟨frame, ?_, (did.names idle names).1⟩
    rw [log]
    simp
  · rw [out] at some
    exact track_of_front grown (learnt.said some)
  · -- an OPEN is the first frame about its stream, so nothing is known of it
    have about := (did.names idle (by rw [accepting]; rfl)).1
    have kind : frame.kind = .opening := by
      cases did with
      | opens _ kind => exact kind
      | grants => simp [Session.modify, idle] at accepting
      | closes =>
        rw [(quiet_removeAndClose _ _).reader] at accepting
        simp [idle] at accepting
      | ignores => simp [idle] at accepting
      | _ => cases accepting
    have split : track id (s.log ++ [frame]) = track id s.log ++ [frame] := by
      rw [track_append, track_cons, if_pos about]
      rfl
    rw [split] at opens
    have first := opens.last.mp kind
    refine ⟨fun n below same => ?_, ?_, ?_⟩
    · exact learnt.streams n (known below) ((named below).symm.trans same) first
    · rw [out]
      by_contra some
      exact learnt.said some first
    · rw [log, split, first]
      rfl
  · rw [named first] at one
    rw [named second] at two
    exact learnt.sole n k (known first) (known second) one two

/-- The accepting end opens no streams. -/
def Pair.Silent (p : Pair) : Prop := ∀ frame ∈ p.far.session.out.accepted, frame.kind ≠ .opening

theorem PairMove.silent {p q : Pair} (move : PairMove p act q) (silent : p.Silent) : q.Silent := by
  cases move with
  | farLink act tasks did =>
    intro frame member
    obtain old | replies := (step_adds did).member member
    · exact silent frame old
    · exact (Reader.replies_names replies).1
  | farUser act did =>
    intro frame member
    obtain old | answers := did.adds.member member
    · exact silent frame old
    · exact answers.1
  | farHears frame next idle did =>
    intro other member
    dsimp only at member
    rw [did.out] at member
    exact silent other member
  | _ => exact silent

/-- What the two ends have said about an id, in any state in which the opener
has given it to one stream at most. -/
structure Pair.Traced (p : Pair) (id : UInt32) : Prop where
  told : p.near.Told id
  learnt : p.far.session.Learnt id

theorem PairMove.traced {p q : Pair} (move : PairMove p act q) (joined : p.Joined)
    (silent : p.Silent) (traced : p.Traced id) (stream : id ≠ 0)
    (sole : q.near.session.Sole id) : q.Traced id := by
  obtain ⟨told, learnt⟩ := traced
  cases move with
  | nearLink act tasks did => exact ⟨told_link joined.sound told stream did tasks, learnt⟩
  | nearTunnel name act did =>
    exact ⟨told_move joined.sound told joined.nearLive.opened did sole, learnt⟩
  | farLink act tasks did => exact ⟨told, learnt_link learnt stream did tasks⟩
  | farUser act did => exact ⟨told, learnt_user learnt did⟩
  | nearHears frame next idle did stepped =>
    have member := List.mem_of_getElem? (nextFrom_eq next).2
    obtain ⟨session, read, same⟩ := Option.map_eq_some_iff.mp stepped
    cases same
    refine ⟨told_heard joined.sound told idle did (silent frame member) (fun about => ?_) read, learnt⟩
    exact track_of_front joined.toFar.front (learnt.said (track_ne_nil.mpr ⟨frame, member, about⟩))
  | farHears frame next idle did stepped =>
    refine ⟨told, learnt_heard learnt idle did stepped ?_⟩
    obtain ⟨rest, sent⟩ := (joined.toFar.hears next did.log).front
    have opens := told.opens
    rw [← sent, track_append, did.log] at opens
    exact opens.front

/-- An id given to one stream at most now was given to one at most before. -/
theorem PairMove.sole_before {p q : Pair} (move : PairMove p act q)
    (sole : q.near.session.Sole id) : p.near.session.Sole id := by
  have before {s s' : Session} (created : s.created ≤ s'.created)
      (named : ∀ n < s.created, (s'.arena n).id = (s.arena n).id) (sole : s'.Sole id) : s.Sole id := by
    intro n k first second one two
    refine sole n k (Nat.lt_of_lt_of_le first created) (Nat.lt_of_lt_of_le second created) ?_ ?_
    · rw [named n first]
      exact one
    · rw [named k second]
      exact two
  cases move with
  | nearLink act tasks did =>
    exact before (step_created did) (fun n known => (step_named did known).1) sole
  | nearTunnel name act did => exact before did.quiet.created did.quiet.id sole
  | nearHears frame next idle did stepped =>
    obtain ⟨session, read, same⟩ := Option.map_eq_some_iff.mp stepped
    cases same
    exact before (step_created read) (fun n known => (step_named read known).1) sole
  | _ => exact sole

/-- No stream is given the id of the keepalive channel. -/
structure Session.Nonzero (s : Session) : Prop where
  admits : s.reader ≠ .accepting 0
  streams : ∀ n < s.created, (s.arena n).id ≠ 0

theorem PairMove.nonzero {p q : Pair} (move : PairMove p act q) (nonzero : p.far.session.Nonzero) :
    q.far.session.Nonzero := by
  cases move with
  | farLink act tasks did =>
    refine ⟨fun admits => ?_, fun n known zero => ?_⟩
    · obtain before | ⟨plain, -, rfl, -⟩ := step_admits did admits
      · exact nonzero.admits before
      · cases tasks
    · obtain ⟨older, same⟩ | ⟨-, admits, -⟩ := step_known did known
      · exact nonzero.streams n older (same.symm.trans zero)
      · exact nonzero.admits (zero ▸ admits)
  | farUser act did =>
    obtain ⟨quiet, created⟩ := did.quiet
    refine ⟨fun admits => nonzero.admits (quiet.reader.symm.trans admits), fun n known zero => ?_⟩
    dsimp only at known
    rw [created] at known
    exact nonzero.streams n known ((quiet.id n known).symm.trans zero)
  | farHears frame next idle did stepped =>
    refine ⟨fun admits => ?_, fun n known zero => ?_⟩
    · exact (did.names idle (congrArg Reader.names admits)).2 rfl
    · have older : n < p.far.session.created := did.created ▸ known
      exact nonzero.streams n older ((step_named stepped older).1.symm.trans zero)
  | _ => exact nonzero

/-- Everything that holds of a pair in any run. -/
structure Pair.Whole (p : Pair) : Prop where
  joined : p.Joined
  silent : p.Silent
  nonzero : p.far.session.Nonzero
  traced : ∀ id, id ≠ 0 → p.near.session.Sole id → p.Traced id
  ids : p.near.session.nextId < 2 ^ 32 → p.near.Ids

theorem Pair.Joined.start (nearStreams farStreams : Nat) :
    (Pair.start nearStreams farStreams).Joined := by
  have live (maxStreams : Nat) (onOpen : Bool) : Live (.start maxStreams onOpen) :=
    ⟨rfl, Nat.le_refl _, fun _ member => (List.not_mem_nil member).elim, rfl⟩
  have carries (s sender : Session) (unread : s.log = []) : Carries s sender := by
    refine ⟨?_, ?_⟩
    · rw [unread]
      exact List.nil_prefix
    · rw [unread]
      exact Nat.zero_le _
  refine ⟨.start nearStreams, fun name => ⟨?_, ?_, ?_⟩, live _ _, wired_start farStreams true,
    live _ _, fun _ => trivial, carries _ _ rfl, carries _ _ rfl⟩
  · intro stage greeting
    cases greeting
  · intro stage sending
    cases sending
  · intro n opening
    cases opening

theorem Pair.Traced.start (nearStreams farStreams : Nat) (id : UInt32) :
    (Pair.start nearStreams farStreams).Traced id := by
  refine ⟨⟨?_, trivial, ?_, ?_, ?_⟩, ⟨?_, ?_, ?_, ?_, ?_⟩⟩
  · intro other reading
    cases reading
  · intro some
    exact absurd rfl some
  · intro name n own
    cases own
  · intro names
    cases names
  · intro n known
    exact absurd known (Nat.not_lt_zero n)
  · intro names
    cases names
  · intro some
    exact absurd rfl some
  · intro admits
    cases admits
  · intro n k known
    exact absurd known (Nat.not_lt_zero n)

theorem Pair.Whole.start (nearStreams farStreams : Nat) :
    (Pair.start nearStreams farStreams).Whole :=
  ⟨.start nearStreams farStreams, fun _ member => (List.not_mem_nil member).elim,
    ⟨Reader.noConfusion, fun n known => absurd known (Nat.not_lt_zero n)⟩,
    fun id _ _ => .start nearStreams farStreams id, fun _ => .start nearStreams⟩

/-- Before the opener's counter comes round, every id belongs to one stream. -/
theorem PairMove.ids {p q : Pair} (move : PairMove p act q) (unopened : q.near.session.Unopened)
    (ids : p.near.session.nextId < 2 ^ 32 → p.near.Ids) (low : q.near.session.nextId < 2 ^ 32) :
    q.near.Ids := by
  cases move with
  | nearLink act tasks did => exact (ids (step_nextId did ▸ low)).link did unopened
  | nearTunnel name act did => exact (ids (Nat.lt_of_le_of_lt did.nextId low)).move did low
  | nearHears frame next idle did stepped =>
    obtain ⟨session, read, same⟩ := Option.map_eq_some_iff.mp stepped
    cases same
    exact (ids (step_nextId read ▸ low)).link read unopened
  | _ => exact ids low

theorem Pair.Whole.step {p q : Pair} (whole : p.Whole) (stepped : p.step act = some q) : q.Whole := by
  have move := Pair.step_move whole.joined stepped
  have joined := move.joined whole.joined
  have silent := move.silent whole.silent
  refine ⟨joined, silent, move.nonzero whole.nonzero, fun id stream sole => ?_,
    move.ids ?_ whole.ids⟩
  · exact move.traced whole.joined whole.silent (whole.traced id stream (move.sole_before sole))
      stream sole
  · intro frame member
    exact silent frame (joined.toNear.front.subset member)

theorem Pair.Whole.run {p q : Pair} (whole : p.Whole) (ran : run Pair.step p actions = some q) :
    q.Whole :=
  run_preserves Pair.Whole (fun _ _ _ whole stepped => whole.step stepped) whole ran

end DshProxy.Mux

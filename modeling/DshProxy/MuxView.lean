import DshProxy.MuxHistory
import DshProxy.Handshake

/-! One stream as the two ends of a link see it: who has it, who is about to get
it, and which CLOSE is on its way. Every step of the pair that loses no CLOSE is
a turn of the handshake between the two. -/
namespace DshProxy.Mux
open Sync Wire Transitions Handshake

/-- Frames queued at one end and not read by the other. -/
def Pair.toFar (p : Pair) : List Frame :=
  p.near.session.out.accepted.drop p.far.session.log.length

def Pair.toNear (p : Pair) : List Frame :=
  p.far.session.out.accepted.drop p.near.session.log.length

/-- A frame of the kind about the stream is among the frames. -/
def Underway (id : UInt32) (kind : Kind) (frames : List Frame) : Prop :=
  ∃ frame ∈ frames, frame.id = id ∧ frame.kind = kind

def Phase.isClosing : Phase → Bool
  | .closing => true
  | _ => false

/-- A tunnel with the id is in a phase of the given sort. -/
def Proxy.Serves (p : Proxy) (id : UInt32) (sort : Phase → Bool) : Prop :=
  ∃ name n, (p.tunnels name).stream = some n ∧ (p.session.arena n).id = id ∧
    sort (p.tunnels name).phase = true

/-- The reader owes the other end a CLOSE. -/
def Session.Refuses (s : Session) (id : UInt32) : Prop := ∃ stream, s.reader = .refuse id stream

/-- A stream as the two ends see it. The accepting end is about to have it from
the moment the opener has inserted it. -/
def Pair.view (p : Pair) (id : UInt32) : View where
  left := p.near.session.streams id ≠ none
  right := p.near.Serves id Phase.announces ∨ Underway id .opening p.toFar ∨
    p.far.session.reader = .accepting id ∨ p.far.session.streams id ≠ none
  leftEnds := Underway id .close p.toFar ∨ p.near.Serves id Phase.isClosing ∨
    p.near.session.Refuses id
  rightEnds := Underway id .close p.toNear ∨ p.far.session.Refuses id

variable {s s' : Session} {t t' : Tunnel} {p q : Pair} {id : UInt32}

theorem underway_append {kind : Kind} {first second : List Frame} :
    Underway id kind (first ++ second) ↔ Underway id kind first ∨ Underway id kind second := by
  simp [Underway, or_and_right, exists_or]

theorem underway_cons {kind : Kind} {frame : Frame} {rest : List Frame} :
    Underway id kind (frame :: rest) ↔
      (frame.id = id ∧ frame.kind = kind) ∨ Underway id kind rest := by
  simp [Underway]

theorem underway_nil {kind : Kind} : ¬ Underway id kind [] := by simp [Underway]

/-- A frame that neither opens nor closes the stream. -/
def Frame.Aside (id : UInt32) (frame : Frame) : Prop :=
  frame.id = id → frame.kind ≠ .opening ∧ frame.kind ≠ .close

/-- What a step of the link tasks does to one stream. -/
inductive LinkEffect (s : Session) (id : UInt32) (s' : Session) : Prop
  | minor (streams : s'.streams id = s.streams id) (refuses : s'.Refuses id ↔ s.Refuses id)
    (admits : s'.reader = .accepting id ↔ s.reader = .accepting id) (adds : Adds (Frame.Aside id) s s')
  | replies (was : s.Refuses id) (streams : s'.streams id = s.streams id)
    (idle : s'.reader = .idle) (out : s'.out.accepted = s.out.accepted ++ [.control id .close])
  | evicts (n) (was : s.reader = .overflow id n) (gone : s'.streams id = none)
    (refuses : s'.Refuses id) (out : s'.out.accepted = s.out.accepted)
  | admits (was : s.reader = .accepting id) (has : s'.streams id ≠ none) (idle : s'.reader = .idle)
    (out : s'.out.accepted = s.out.accepted)

theorem step_effect (live : Live s) (stepped : s.step act = some s') (tasks : act.isLive = true)
    (id : UInt32) : LinkEffect s id s' := by
  have alive := live.reader
  have opened := live.opened
  have refuses_at {s : Session} (r : Reader) (reading : s.reader = r) :
      s.Refuses id ↔ ∃ stream, r = .refuse id stream := by
    unfold Session.Refuses
    rw [reading]
  cases step_move stepped with
  | admits other reading =>
    by_cases same : id = other
    · subst same
      exact .admits reading (by simp [Session.insert]) rfl rfl
    · refine .minor ?_ ?_ ?_ (.nothing rfl)
      · simp [Session.insert, same]
      · rw [refuses_at _ reading]
        simp [Session.Refuses]
      · rw [reading]
        simp [Ne.symm same]
  | admitsNobody other reading =>
    by_cases same : id = other
    · subst same
      exact .admits reading (by simp [Session.insert, Session.modify]) rfl rfl
    · refine .minor ?_ ?_ ?_ (.nothing rfl)
      · simp [Session.insert, Session.modify, same]
      · rw [refuses_at _ reading]
        simp [Session.Refuses, Session.modify]
      · rw [reading]
        simp [Session.modify, Ne.symm same]
  | delivers other n body reading =>
    refine .minor rfl ?_ ?_ (.nothing rfl)
    · rw [refuses_at _ reading]
      simp [Session.Refuses]
    · simp [reading]
  | drops other n body reading =>
    refine .minor rfl ?_ ?_ (.nothing rfl)
    · rw [refuses_at _ reading]
      simp [Session.Refuses]
    · simp [reading]
  | overflows other n body reading =>
    refine .minor rfl ?_ ?_ (.nothing rfl)
    · rw [refuses_at _ reading]
      simp [Session.Refuses]
    · simp [reading]
  | evicts other n reading =>
    by_cases same : id = other
    · subst same
      refine .evicts n reading ?_ ⟨some n, rfl⟩ (by simp)
      dsimp only
      rw [removeAndClose_streams, if_pos rfl]
    · refine .minor ?_ ?_ ?_ (.nothing (by simp))
      · dsimp only
        rw [removeAndClose_streams, if_neg same]
      · rw [refuses_at _ reading]
        simp [Session.Refuses, Ne.symm same]
      · simp [reading]
  | dies reading =>
    rw [reading] at alive
    cases alive
  | ends reading =>
    rw [reading] at alive
    cases alive
  | replies frame replies did =>
    have out := enqueue_adds did
    have streams := (alike_enqueue did).streams
    cases reading : s.reader with
    | echo =>
      rw [reading] at replies
      cases replies
      refine .minor (congrFun streams id) ?_ ?_ (.one (by simp [Frame.Aside, Frame.control]) out)
      · rw [refuses_at _ reading]
        simp [Session.Refuses]
      · simp [reading]
    | refuse other n =>
      rw [reading] at replies
      cases replies
      by_cases same : id = other
      · subst same
        exact .replies ⟨n, reading⟩ (congrFun streams id) rfl out
      · refine .minor (congrFun streams id) ?_ ?_ (.one ?_ out)
        · rw [refuses_at _ reading]
          simp [Session.Refuses, Ne.symm same]
        · simp [reading]
        · exact fun about => absurd about.symm same
    | _ =>
      rw [reading] at replies
      cases replies
  | replyFails _ _ dead =>
    rw [dead] at opened
    cases opened
  | takeBatch => exact .minor rfl Iff.rfl Iff.rfl (.nothing rfl)
  | feed => exact .minor rfl Iff.rfl Iff.rfl (.nothing rfl)
  | release => exact .minor rfl Iff.rfl Iff.rfl (.nothing rfl)
  | _ => cases tasks

/-- What a step of a tunnel does to the streams. -/
inductive TunnelEffect (s : Session) (t : Tunnel) : Session → Tunnel → Prop
  | inserts (new) (phase : t.phase = .opening (.insert new)) : TunnelEffect s t (s.insert new)
      { t with phase := .opening (.announce s.created), stream := some s.created }
  | announces (n) (own : t.stream = some n) (phase : t.phase = .opening (.announce n))
    (streams : session.streams = s.streams) (later : tunnel.phase.announces = false)
    (unrouted : tunnel.phase.isClosing = false) (stream : tunnel.stream = t.stream)
    (out : session.out.accepted = s.out.accepted ++ [.control (s.arena n).id .opening]) :
    TunnelEffect s t session tunnel
  | leaves (n) (own : t.stream = some n) (running : t.phase = .running) :
    TunnelEffect s t (s.remove (s.arena n).id) { t with phase := .closing }
  | closes (n) (own : t.stream = some n) (phase : t.phase = .closing)
    (streams : session.streams = s.streams)
    (out : session.out.accepted = s.out.accepted ++ [.control (s.arena n).id .close]) :
    TunnelEffect s t session { t with phase := .returned }
  | minor (streams : session.streams = s.streams)
    (announcing : tunnel.phase.announces = t.phase.announces)
    (closing : tunnel.phase.isClosing = t.phase.isClosing) (stream : tunnel.stream = t.stream)
    (adds : Adds (fun frame => ∀ id, frame.Aside id) s session) : TunnelEffect s t session tunnel

private theorem send_aside (did : s.sendStep n stage = some (s', next)) :
    s'.streams = s.streams ∧ Adds (fun frame => ∀ id, frame.Aside id) s s' := by
  refine ⟨(alike_sendStep did).streams, (sendStep_move did).adds fun chunk id about => ?_⟩
  exact ⟨by simp, by simp⟩

theorem Move.effect (move : Move s t act s' t') (fits : t.Fits) (live : Live s)
    (lively : t.Lively) : TunnelEffect s t s' t' := by
  have place := fits.place
  have dead_not (dead : s.out.isOpen = false) : False := by
    have opened := live.opened
    rw [dead] at opened
    cases opened
  cases move with
  | begin head idle => exact .minor rfl (by rw [idle]; rfl) (by rw [idle]; rfl) rfl (.nothing rfl)
  | reserve phase did =>
    obtain ⟨-, same⟩ := Option.ite_none_left_eq_some.mp did
    cases same
    exact .minor rfl (by rw [phase]; rfl) (by rw [phase]; rfl) rfl (.nothing rfl)
  | refused phase => exact .minor rfl (by rw [phase]; rfl) (by rw [phase]; rfl) rfl (.nothing rfl)
  | allocate phase => exact .minor rfl (by rw [phase]; rfl) (by rw [phase]; rfl) rfl (.nothing rfl)
  | insert new phase => exact .inserts new phase
  | announce n phase did =>
    rw [phase] at place
    exact .announces n place phase (alike_enqueue did).streams rfl rfl rfl (enqueue_adds did)
  | announceFails n _ dead => exact (dead_not dead).elim
  | giveUp n phase => exact absurd phase (lively.announced n)
  | greeting stage next n phase _ did =>
    obtain ⟨streams, adds⟩ := send_aside did
    refine .minor streams ?_ ?_ (by cases next <;> rfl) adds
    · rw [phase]
      cases next <;> rfl
    · rw [phase]
      cases next <;> rfl
  | rejected stage n phase _ did =>
    obtain ⟨streams, adds⟩ := send_aside did
    exact .minor streams (by rw [phase]; rfl) (by rw [phase]; rfl) rfl adds
  | closed n phase own did =>
    have out := enqueue_adds did
    have streams := (alike_enqueue did).streams
    exact .closes n own phase streams out
  | closeFails n _ _ dead => exact (dead_not dead).elim
  | uplinkSend stage next n _ _ did =>
    obtain ⟨streams, adds⟩ := send_aside did
    exact .minor streams rfl rfl rfl adds
  | recv n chunk _ _ _ did =>
    obtain ⟨⟨first, inbox⟩, -, same⟩ := Option.map_eq_some_iff.mp did
    cases same
    exact .minor rfl rfl rfl rfl (.nothing rfl)
  | grant n _ _ _ did =>
    refine .minor (alike_enqueue did).streams rfl rfl rfl (.one (fun id _ => ?_) (enqueue_adds did))
    simp [Frame.grant]
  | grantFails n _ _ _ dead => exact (dead_not dead).elim
  | leave n running own => exact .leaves n own running
  | _ => exact .minor rfl rfl rfl rfl (.nothing rfl)

theorem underway_aside {kind : Kind} (adds : Adds (Frame.Aside id) s s')
    (within : count ≤ s.out.accepted.length) (decisive : kind = .opening ∨ kind = .close) :
    Underway id kind (s'.out.accepted.drop count) ↔ Underway id kind (s.out.accepted.drop count) := by
  obtain same | ⟨frame, aside, more⟩ := adds
  · rw [same]
  · rw [more, List.drop_append_of_le_length within, underway_append, underway_cons]
    have none : ¬ (frame.id = id ∧ frame.kind = kind) := by
      rintro ⟨about, rfl⟩
      obtain opening | close := decisive
      · exact (aside about).1 opening
      · exact (aside about).2 close
    simp [none, underway_nil]

theorem underway_pushed {kind : Kind} (more : s'.out.accepted = s.out.accepted ++ [frame])
    (within : count ≤ s.out.accepted.length) :
    Underway id kind (s'.out.accepted.drop count) ↔
      Underway id kind (s.out.accepted.drop count) ∨ (frame.id = id ∧ frame.kind = kind) := by
  rw [more, List.drop_append_of_le_length within, underway_append, underway_cons]
  simp [underway_nil]

/-- Phases that the step leaves in their sort, of streams that keep their ids. -/
theorem serves_link {near : Proxy} {sort : Phase → Bool} (sound : near.Sound)
    (named : ∀ n < near.session.created, (s'.arena n).id = (near.session.arena n).id) :
    ({ near with session := s' } : Proxy).Serves id sort ↔ near.Serves id sort := by
  constructor
  · rintro ⟨name, n, own, about, stage⟩
    exact ⟨name, n, own, (named n (sound.known own)).symm.trans about, stage⟩
  · rintro ⟨name, n, own, about, stage⟩
    exact ⟨name, n, own, (named n (sound.known own)).trans about, stage⟩

theorem serves_move {near : Proxy} {sort : Phase → Bool} (sound : near.Sound)
    (move : Move near.session (near.tunnels name) act s' t')
    (stream : t'.stream = (near.tunnels name).stream)
    (kept : ∀ n, t'.stream = some n → (near.session.arena n).id = id →
      sort t'.phase = sort (near.tunnels name).phase) :
    (near.put name s' t').Serves id sort ↔ near.Serves id sort := by
  have named {other n : Nat} (own : (near.tunnels other).stream = some n) :=
    move.quiet.id n (sound.known own)
  constructor
  · rintro ⟨other, n, own, about, stage⟩
    by_cases same : other = name
    · subst same
      rw [Proxy.put_self] at own stage
      have before := stream ▸ own
      have about := (named before).symm.trans about
      exact ⟨other, n, before, about, kept n own about ▸ stage⟩
    · rw [Proxy.put_other _ same] at own stage
      exact ⟨other, n, own, (named own).symm.trans about, stage⟩
  · rintro ⟨other, n, own, about, stage⟩
    refine ⟨other, n, ?_, (named own).trans about, ?_⟩
    · by_cases same : other = name
      · subst same
        rw [Proxy.put_self, stream]
        exact own
      · rw [Proxy.put_other _ same]
        exact own
    · by_cases same : other = name
      · subst same
        rw [Proxy.put_self, kept n (stream.trans own) about]
        exact stage
      · rw [Proxy.put_other _ same]
        exact stage

/-- A stream the accepting end has been told of is not about to be opened. -/
theorem Pair.Traced.not_opening (traced : p.Traced id) (joined : p.Joined)
    (begun : track id p.far.session.log ≠ []) :
    ¬ p.near.Serves id Phase.announces ∧ ¬ Underway id .opening p.toFar := by
  have sent := joined.toFar.front
  refine ⟨?_, ?_⟩
  · rintro ⟨name, n, own, about, announcing⟩
    have place := (joined.sound.fits name).place
    cases phase : (p.near.tunnels name).phase with
    | opening stage =>
      rw [phase] at place announcing
      cases stage with
      | announce k =>
        obtain rfl : k = n := Option.some.inj (place.symm.trans own)
        have none := (traced.told.announced name k own about).mp phase
        exact track_of_front sent begun none
      | _ => cases announcing
    | _ =>
      rw [phase] at announcing
      cases announcing
  · rintro ⟨frame, member, about, kind⟩
    have opens := traced.told.opens
    obtain ⟨rest, split⟩ := sent
    have behind : p.toFar = rest := by
      rw [Pair.toFar, ← split, List.drop_left]
    rw [behind] at member
    rw [← split, track_append] at opens
    exact opens.behind begun frame (List.mem_filter.mpr ⟨member, by simpa using about⟩) kind

private theorem turn_nearLink (joined : p.Joined) (traced : p.Traced id)
    (tasks : act.isLive = true) (did : p.near.session.step act = some s') :
    Turn (p.view id) (({ p with near := { p.near with session := s' } } : Pair).view id) := by
  have within := joined.toFar.front.length_le
  have log := (extends_step did tasks).log
  have named (n : Nat) (known : n < p.near.session.created) := (step_named did known).1
  have rightEnds : (({ p with near := { p.near with session := s' } } : Pair).view id).rightEnds ↔
      (p.view id).rightEnds := by
    simp only [Pair.view, Pair.toNear, log]
  cases step_effect joined.nearLive did tasks id with
  | minor streams refuses admits adds =>
    refine .same ?_ ?_ ?_ rightEnds
    · simp only [Pair.view, streams]
    · exact or_congr (serves_link joined.sound named)
        (or_congr (underway_aside adds within (.inl rfl)) Iff.rfl)
    · exact or_congr (underway_aside adds within (.inr rfl))
        (or_congr (serves_link joined.sound named) refuses)
  | replies was streams idle out =>
    refine .same ?_ ?_ ?_ rightEnds
    · simp only [Pair.view, streams]
    · refine or_congr (serves_link joined.sound named) (or_congr ?_ Iff.rfl)
      refine (underway_pushed out within).trans ?_
      simp [Frame.control, Pair.toFar]
    · refine iff_of_true (.inl ?_) (.inr (.inr was))
      exact (underway_pushed out within).mpr (.inr ⟨rfl, rfl⟩)
  | evicts n was gone refuses out =>
    refine .leftDrops (fun has => has gone) (.inr (.inr refuses)) ?_ rightEnds
    refine or_congr (serves_link joined.sound named) (or_congr ?_ Iff.rfl)
    simp only [Pair.toFar, out]
  | admits was => exact absurd was (traced.told.reader id)

private theorem turn_farLink (joined : p.Joined) (traced : p.Traced id)
    (tasks : act.isLive = true) (did : p.far.session.step act = some s') :
    Turn (p.view id) (({ p with far := { p.far with session := s' } } : Pair).view id) := by
  have within := joined.toNear.front.length_le
  have log := (extends_step did tasks).log
  have toFar : ({ p with far := { p.far with session := s' } } : Pair).toFar = p.toFar := by
    simp only [Pair.toFar, log]
  have leftEnds : (({ p with far := { p.far with session := s' } } : Pair).view id).leftEnds ↔
      (p.view id).leftEnds := by
    simp only [Pair.view, toFar]
  cases step_effect joined.farLive did tasks id with
  | minor streams refuses admits adds =>
    refine .same Iff.rfl ?_ leftEnds ?_
    · simp only [Pair.view, toFar, streams, admits]
    · exact or_congr (underway_aside adds within (.inr rfl)) refuses
  | replies was streams idle out =>
    obtain ⟨n, reading⟩ := was
    refine .same Iff.rfl ?_ leftEnds ?_
    · simp only [Pair.view, toFar, streams, idle, reading, reduceCtorEq]
    · refine iff_of_true (.inl ?_) (.inr ⟨n, reading⟩)
      exact (underway_pushed out within).mpr (.inr ⟨rfl, rfl⟩)
  | evicts n was gone refuses out =>
    have begun : track id p.far.session.log ≠ [] := traced.learnt.names (by rw [was]; rfl)
    obtain ⟨quiet, sent⟩ := traced.not_opening joined begun
    refine .rightDrops ?_ (.inr refuses) Iff.rfl leftEnds
    rintro (announcing | opening | admits | has)
    · exact quiet announcing
    · rw [toFar] at opening
      exact sent opening
    · obtain ⟨m, reading⟩ := refuses
      rw [show s'.reader = _ from admits] at reading
      cases reading
    · exact has gone
  | admits was has idle out =>
    refine .same Iff.rfl ?_ leftEnds ?_
    · exact iff_of_true (.inr (.inr (.inr has))) (.inr (.inr (.inl was)))
    · refine or_congr ?_ ?_
      · simp only [Pair.toNear, out]
      · simp [Session.Refuses, was, idle]

/-- A fresh id: nobody has spoken of it. -/
private theorem turn_opens {name : Nat} (joined : p.Joined) (traced : p.Traced id)
    (sole : (p.near.session.insert id).Sole id) :
    Turn (p.view id) ((⟨p.near.put name (p.near.session.insert id)
      { p.near.tunnels name with
        phase := .opening (.announce p.near.session.created)
        stream := some p.near.session.created }, p.far⟩ : Pair).view id) := by
  have last : ((p.near.session.insert id).arena p.near.session.created).id = id := by
    simp [Session.insert]
  have fresh (n : Nat) (known : n < p.near.session.created) : (p.near.session.arena n).id ≠ id := by
    intro same
    rw [← arena_insert _ id known] at same
    exact Nat.ne_of_lt known (sole n _ (Nat.lt_succ_of_lt known) (Nat.lt_succ_self _) same last)
  have unsaid : track id p.near.session.out.accepted = [] := by
    by_contra some
    obtain ⟨n, known, same⟩ := traced.told.origin some
    exact fresh n known same
  have unheard : track id p.far.session.log = [] := by
    by_contra some
    exact track_of_front joined.toFar.front some unsaid
  refine .opens ?_ (.inl ⟨name, p.near.session.created, ?_, last, ?_⟩) ?_ ?_
  · simp [Pair.view, Session.insert]
  · rw [Proxy.put_self]
  · rw [Proxy.put_self]
    rfl
  · rintro (⟨frame, member, about, -⟩ | ⟨other, n, own, about, closing⟩ | ⟨stream, reading⟩)
    · exact track_ne_nil.mpr ⟨frame, List.mem_of_mem_drop member, about⟩ unsaid
    · by_cases same : other = name
      · subst same
        rw [Proxy.put_self] at closing
        cases closing
      · rw [Proxy.put_other _ same] at own
        have known := joined.sound.known own
        rw [Proxy.put_session, arena_insert _ id known] at about
        exact fresh n known about
    · have reading : p.near.session.reader = .refuse id stream := reading
      exact traced.told.names (by rw [reading]; rfl) unsaid
  · rintro (⟨frame, member, about, -⟩ | ⟨stream, reading⟩)
    · exact traced.learnt.said
        (track_ne_nil.mpr ⟨frame, List.mem_of_mem_drop member, about⟩) unheard
    · exact traced.learnt.names (by rw [reading]; rfl) unheard

/-- A tunnel that has had no stream inserts one under another id. -/
private theorem serves_insert {name : Nat} {new : UInt32} (joined : p.Joined)
    (unplaced : (p.near.tunnels name).stream = none) (away : id ≠ new) {sort : Phase → Bool} :
    (p.near.put name (p.near.session.insert new)
      { p.near.tunnels name with
        phase := .opening (.announce p.near.session.created)
        stream := some p.near.session.created }).Serves id sort ↔ p.near.Serves id sort := by
  have sound := joined.sound
  constructor
  · rintro ⟨other, n, own, about, stage⟩
    by_cases mine : other = name
    · subst mine
      rw [Proxy.put_self] at own
      cases own
      exact absurd (by simpa [Session.insert] using about.symm) away
    · rw [Proxy.put_other _ mine] at own stage
      rw [Proxy.put_session, arena_insert _ new (sound.known own)] at about
      exact ⟨other, n, own, about, stage⟩
  · rintro ⟨other, n, own, about, stage⟩
    have elsewhere : other ≠ name := by
      rintro rfl
      rw [unplaced] at own
      cases own
    refine ⟨other, n, ?_, ?_, ?_⟩
    · rw [Proxy.put_other _ elsewhere]
      exact own
    · rw [Proxy.put_session, arena_insert _ new (sound.known own)]
      exact about
    · rw [Proxy.put_other _ elsewhere]
      exact stage

private theorem turn_nearTunnel {name : Nat} (joined : p.Joined) (traced : p.Traced id)
    (move : Move p.near.session (p.near.tunnels name) act s' t') (sole : s'.Sole id) :
    Turn (p.view id) (({ p with near := p.near.put name s' t' } : Pair).view id) := by
  have within := joined.toFar.front.length_le
  have log := move.quiet.log
  have reader := move.quiet.reader
  have sound := joined.sound
  have fits := sound.fits name
  have refuses : s'.Refuses id ↔ p.near.session.Refuses id := by
    unfold Session.Refuses
    rw [reader]
  have rightEnds : (({ p with near := p.near.put name s' t' } : Pair).view id).rightEnds ↔
      (p.view id).rightEnds := by
    simp only [Pair.view, Pair.toNear, Proxy.put_session, log]
  cases move.effect fits joined.nearLive (joined.lively name) with
  | inserts new phase =>
    have place := fits.place
    rw [phase] at place
    by_cases same : id = new
    · subst same
      exact turn_opens joined traced sole
    · refine .same ?_ (or_congr (serves_insert joined place same) Iff.rfl)
        (or_congr Iff.rfl (or_congr (serves_insert joined place same) Iff.rfl)) rightEnds
      simp [Pair.view, Session.insert, same]
  | announces n own phase streams later unrouted stream out =>
    have closing : (p.near.put name s' t').Serves id Phase.isClosing ↔
        p.near.Serves id Phase.isClosing :=
      serves_move sound move stream fun _ _ _ => by rw [unrouted, phase]; rfl
    refine .same ?_ ?_ (or_congr ?_ (or_congr closing refuses)) rightEnds
    · simp only [Pair.view, Proxy.put_session, streams]
    · by_cases same : (p.near.session.arena n).id = id
      · refine iff_of_true (.inr (.inl ?_)) (.inl ⟨name, n, own, same, by rw [phase]; rfl⟩)
        exact (underway_pushed out within).mpr (.inr ⟨same, rfl⟩)
      · refine or_congr (serves_move sound move stream fun k other about => ?_) (or_congr ?_ Iff.rfl)
        · rw [stream] at other
          obtain rfl : n = k := Option.some.inj (own.symm.trans other)
          exact absurd about same
        · refine (underway_pushed out within).trans ?_
          simp [Frame.control, same, Pair.toFar]
    · refine (underway_pushed out within).trans ?_
      simp [Frame.control, Pair.toFar]
  | leaves n own running =>
    have announcing : (p.near.put name (p.near.session.remove (p.near.session.arena n).id)
        { p.near.tunnels name with phase := .closing }).Serves id Phase.announces ↔
        p.near.Serves id Phase.announces :=
      serves_move sound move rfl fun _ _ _ => by rw [running]; rfl
    have toFar : (⟨p.near.put name (p.near.session.remove (p.near.session.arena n).id)
        { p.near.tunnels name with phase := .closing }, p.far⟩ : Pair).toFar = p.toFar := by
      simp [Pair.toFar]
    by_cases same : (p.near.session.arena n).id = id
    · refine .leftDrops ?_ (.inr (.inl ⟨name, n, ?_, ?_, ?_⟩)) ?_ rightEnds
      · simp [Pair.view, same]
      · rw [Proxy.put_self]
        exact own
      · rw [Proxy.put_session, arena_remove]
        exact same
      · rw [Proxy.put_self]
        rfl
      · exact or_congr announcing (or_congr (by rw [toFar]) Iff.rfl)
    · refine .same ?_ (or_congr announcing (or_congr (by rw [toFar]) Iff.rfl))
        (or_congr (by rw [toFar]) (or_congr ?_ refuses)) rightEnds
      · simp [Pair.view, Ne.symm same]
      · refine serves_move sound move rfl fun k other about => ?_
        obtain rfl : n = k := Option.some.inj (own.symm.trans other)
        exact absurd about same
  | closes n own phase streams out =>
    refine .same ?_ (or_congr ?_ (or_congr ?_ Iff.rfl)) ?_ rightEnds
    · simp only [Pair.view, Proxy.put_session, streams]
    · exact serves_move sound move rfl fun _ _ _ => by rw [phase]; rfl
    · refine (underway_pushed out within).trans ?_
      simp [Frame.control, Pair.toFar]
    · by_cases same : (p.near.session.arena n).id = id
      · refine iff_of_true (.inl ?_) (.inr (.inl ⟨name, n, own, same, by rw [phase]; rfl⟩))
        exact (underway_pushed out within).mpr (.inr ⟨same, rfl⟩)
      · refine or_congr ?_ (or_congr (serves_move sound move rfl fun k other about => ?_) refuses)
        · refine (underway_pushed out within).trans ?_
          simp [Frame.control, same, Pair.toFar]
        · obtain rfl : n = k := Option.some.inj (own.symm.trans other)
          exact absurd about same
  | minor streams announcing closing stream adds =>
    have aside : Adds (Frame.Aside id) p.near.session s' := by
      obtain same | ⟨frame, any, more⟩ := adds
      · exact .inl same
      · exact .inr ⟨frame, any id, more⟩
    refine .same ?_ (or_congr ?_ (or_congr ?_ Iff.rfl)) (or_congr ?_ (or_congr ?_ refuses)) rightEnds
    · simp only [Pair.view, Proxy.put_session, streams]
    · exact serves_move sound move stream fun _ _ _ => announcing
    · exact underway_aside aside within (.inl rfl)
    · exact underway_aside aside within (.inr rfl)
    · exact serves_move sound move stream fun _ _ _ => closing

/-- Everything the acceptor's users do to a stream short of closing it. -/
private theorem turn_farAside (joined : p.Joined) {far : Acceptor}
    (quiet : Quiet p.far.session far.session)
    (streams : far.session.streams id = p.far.session.streams id)
    (adds : Adds (Frame.Aside id) p.far.session far.session) :
    Turn (p.view id) (({ p with far } : Pair).view id) := by
  have within := joined.toNear.front.length_le
  refine .same Iff.rfl ?_ ?_ (or_congr ?_ ?_)
  · simp only [Pair.view, Pair.toFar, quiet.log, quiet.reader, streams]
  · simp only [Pair.view, Pair.toFar, quiet.log]
  · exact underway_aside adds within (.inr rfl)
  · simp only [Session.Refuses, quiet.reader]

private theorem turn_farCloses (joined : p.Joined) (traced : p.Traced id) {far : Acceptor}
    (known : n < p.far.session.created)
    (quiet : Quiet p.far.session far.session)
    (closed : p.far.session.closeStream n sent = some s')
    (permits : sent = true ∨ p.far.session.streams (p.far.session.arena n).id = none)
    (streams : far.session.streams = s'.streams)
    (out : far.session.out.accepted = s'.out.accepted) :
    Turn (p.view id) (({ p with far } : Pair).view id) := by
  have within := joined.toNear.front.length_le
  have removed : s'.streams = (p.far.session.removeAndClose (p.far.session.arena n).id).streams := by
    obtain ⟨-, queued⟩ | ⟨-, rfl⟩ := closeStream_cases closed
    · exact (alike_enqueue queued).streams
    · rfl
  by_cases same : (p.far.session.arena n).id = id
  · have gone : far.session.streams id = none := by
      rw [streams, removed, removeAndClose_streams, if_pos same.symm]
    obtain ⟨-, queued⟩ | ⟨rfl, rfl⟩ := closeStream_cases closed
    · have more : far.session.out.accepted = p.far.session.out.accepted ++ [.control id .close] := by
        rw [out, enqueue_adds queued, removeAndClose_out, same]
      obtain ⟨silent, sent⟩ := traced.not_opening joined (traced.learnt.streams n known same)
      refine .rightDrops ?_ (.inl ((underway_pushed more within).mpr (.inr ⟨rfl, rfl⟩))) Iff.rfl ?_
      · rintro (announcing | opening | admits | has)
        · exact silent announcing
        · simp only [Pair.toFar, quiet.log] at opening
          exact sent opening
        · exact (traced.learnt.admits (quiet.reader.symm.trans admits)).1 n known same
        · exact has gone
      · simp only [Pair.view, Pair.toFar, quiet.log]
    · have absent := permits.resolve_left Bool.false_ne_true
      rw [same] at absent
      refine turn_farAside joined quiet (gone.trans absent.symm) (.nothing ?_)
      rw [out, removeAndClose_out]
  · have kept : far.session.streams id = p.far.session.streams id := by
      rw [streams, removed, removeAndClose_streams, if_neg (Ne.symm same)]
    refine turn_farAside joined quiet kept ?_
    obtain ⟨-, queued⟩ | ⟨-, rfl⟩ := closeStream_cases closed
    · refine .inr ⟨.control (p.far.session.arena n).id .close, fun about => ?_, ?_⟩
      · exact absurd about same
      · rw [out, enqueue_adds queued, removeAndClose_out]
    · exact .nothing (by rw [out, removeAndClose_out])

/-- No `close_stream` that takes a stream out of the map finds the outbox full. -/
def Pair.Permits (p : Pair) : PairAct → Prop
  | .far (.shutdown stream sent) | .far (.drop stream sent) =>
    sent = true ∨ p.far.session.streams (p.far.session.arena stream).id = none
  | _ => True

instance (p : Pair) : (act : PairAct) → Decidable (p.Permits act)
  | .far (.shutdown _ _) | .far (.drop _ _) => inferInstanceAs (Decidable (_ ∨ _))
  | .far (.link _) | .far (.send _ _) | .far (.proceed _) | .far (.recv _)
  | .far (.flushCredit _ _ _) | .near _ | .nearHears | .farHears => isTrue trivial

private theorem turn_farUser (joined : p.Joined) (traced : p.Traced id)
    (move : AcceptorMove p.far act far) (permits : p.Permits (.far act)) :
    Turn (p.view id) (({ p with far } : Pair).view id) := by
  have quiet := move.quiet.1
  cases move with
  | send n data => exact turn_farAside joined quiet rfl (.nothing rfl)
  | proceed n next known did =>
    refine turn_farAside joined quiet ?_ (did.adds fun chunk _ => by simp)
    exact congrFun did.streams id
  | recv n chunk known did =>
    exact turn_farAside joined quiet (congrFun (alike_take did).streams id)
      (.nothing (congrArg Channel.accepted (take_out did)))
  | grants n bytes known did =>
    exact turn_farAside joined quiet (congrFun (alike_enqueue did).streams id)
      (.one (fun _ => by simp [Frame.grant]) (enqueue_adds did))
  | owes n bytes => exact turn_farAside joined quiet rfl (.nothing rfl)
  | shutdown n sent known did => exact turn_farCloses joined traced known quiet did permits rfl rfl
  | drop n sent known did => exact turn_farCloses joined traced known quiet did permits rfl rfl

theorem hears_drop {sender : Session} (next : s.nextFrom sender = some frame)
    (log : s'.log = s.log ++ [frame]) :
    sender.out.accepted.drop s.log.length = frame :: sender.out.accepted.drop s'.log.length := by
  obtain ⟨-, there⟩ := nextFrom_eq next
  obtain ⟨below, value⟩ := List.getElem?_eq_some_iff.mp there
  rw [log, List.length_append, List.length_singleton, List.drop_eq_getElem_cons below, value]

/-- What reading a frame does to a stream it does not open or close. -/
theorem Heard.aside (did : Heard s frame s') (idle : s.reader = .idle)
    (aside : frame.Aside id) :
    s'.streams id = s.streams id ∧ ¬ s'.Refuses id ∧ s'.reader ≠ .accepting id := by
  have waits {s : Session} (idle : s.reader = .idle) : ¬ s.Refuses id ∧ s.reader ≠ .accepting id := by
    simp [Session.Refuses, idle]
  cases did with
  | keepalive => exact ⟨rfl, by simp [Session.Refuses], by simp⟩
  | opens named kind =>
    have other : frame.id ≠ id := fun about => (aside about).1 kind
    exact ⟨rfl, by simp [Session.Refuses], by simp [other]⟩
  | overBudget named kind =>
    have other : frame.id ≠ id := fun about => (aside about).1 kind
    exact ⟨rfl, by simp [Session.Refuses, other], by simp⟩
  | data aim => exact ⟨rfl, by simp [Session.Refuses], by simp⟩
  | grants aim => exact ⟨rfl, waits idle⟩
  | closes named kind =>
    have other : id ≠ frame.id := fun about => (aside about.symm).2 kind
    refine ⟨?_, waits ?_⟩
    · rw [removeAndClose_streams, if_neg other]
    · exact (quiet_removeAndClose _ _).reader.trans idle
  | ignores => exact ⟨rfl, waits idle⟩

/-- What reading the CLOSE of a stream does. -/
theorem Heard.closed (did : Heard s frame s') (idle : s.reader = .idle) (stream : id ≠ 0)
    (about : frame.id = id) (kind : frame.kind = .close) :
    s'.streams id = none ∧ s'.reader = .idle := by
  cases did with
  | keepalive zero => exact absurd (about.symm.trans zero) stream
  | opens _ other => cases kind.symm.trans other
  | overBudget _ other => cases kind.symm.trans other
  | data _ _ other => cases kind.symm.trans other
  | grants _ _ other => cases kind.symm.trans other
  | closes =>
    refine ⟨?_, (quiet_removeAndClose _ _).reader.trans idle⟩
    rw [removeAndClose_streams, if_pos about.symm]
  | ignores _ nothing => simp [Session.Ignores, kind] at nothing

/-- What reading the OPEN of a stream does. -/
theorem Heard.opened (did : Heard s frame s') (stream : id ≠ 0) (about : frame.id = id)
    (kind : frame.kind = .opening) :
    s'.streams = s.streams ∧ (s'.reader = .accepting id ∨ s'.reader = .refuse id none) := by
  cases did with
  | keepalive zero => exact absurd (about.symm.trans zero) stream
  | opens => exact ⟨rfl, .inl (by rw [about])⟩
  | overBudget => exact ⟨rfl, .inr (by rw [about])⟩
  | data _ _ other => cases kind.symm.trans other
  | grants _ _ other => cases kind.symm.trans other
  | closes _ other => cases kind.symm.trans other
  | ignores _ nothing => simp [Session.Ignores, kind] at nothing

private theorem turn_nearHears (joined : p.Joined) (silent : p.Silent) (stream : id ≠ 0)
    (next : p.near.session.nextFrom p.far.session = some frame)
    (idle : p.near.session.reader = .idle) (did : Heard p.near.session frame s')
    (named : ∀ n < p.near.session.created, (s'.arena n).id = (p.near.session.arena n).id) :
    Turn (p.view id) (({ p with near := { p.near with session := s' } } : Pair).view id) := by
  have ahead := hears_drop next did.log
  have member := List.mem_of_getElem? (nextFrom_eq next).2
  have serves {sort : Phase → Bool} : _ ↔ p.near.Serves id sort := serves_link joined.sound named
  have toFar : ({ p with near := { p.near with session := s' } } : Pair).toFar = p.toFar := by
    simp only [Pair.toFar, did.out]
  have waiting : ¬ p.near.session.Refuses id := by simp [Session.Refuses, idle]
  have right : (({ p with near := { p.near with session := s' } } : Pair).view id).right ↔
      (p.view id).right := or_congr serves (or_congr (by rw [toFar]) Iff.rfl)
  have leftEnds (waits : ¬ s'.Refuses id) :
      (({ p with near := { p.near with session := s' } } : Pair).view id).leftEnds ↔
        (p.view id).leftEnds :=
    or_congr (by rw [toFar]) (or_congr serves (iff_of_false waits waiting))
  by_cases closing : frame.id = id ∧ frame.kind = .close
  · obtain ⟨gone, waits⟩ := did.closed idle stream closing.1 closing.2
    refine .leftHears (.inl ?_) (fun has => has gone) right (leftEnds ?_) ?_
    · exact ⟨frame, by rw [Pair.toNear, ahead]; simp, closing⟩
    · simp [Session.Refuses, waits]
    · rintro (⟨other, later, about⟩ | refuses)
      · exact .inl ⟨other, by rw [Pair.toNear, ahead]; exact List.mem_cons_of_mem _ later, about⟩
      · exact .inr refuses
  · obtain ⟨streams, waits, -⟩ := did.aside idle
      (fun about => ⟨silent frame member, fun kind => closing ⟨about, kind⟩⟩)
    refine .same ?_ right (leftEnds waits) (or_congr ?_ Iff.rfl)
    · simp only [Pair.view, streams]
    · rw [Pair.toNear, Pair.toNear, ahead, underway_cons]
      simp [closing]

/-- An OPEN is the first the accepting end hears of a stream. -/
theorem Pair.Traced.unheard (traced : p.Traced id) (joined : p.Joined)
    (next : p.far.session.nextFrom p.near.session = some frame) (about : frame.id = id)
    (kind : frame.kind = .opening) :
    track id p.far.session.log = [] ∧ p.far.session.streams id = none := by
  have nothing : track id p.far.session.log = [] := by
    have heard : Carries { p.far.session with log := p.far.session.log ++ [frame] } p.near.session :=
      joined.toFar.hears next rfl
    obtain ⟨rest, sent⟩ := heard.front
    have opens := traced.told.opens
    rw [← sent, track_append, track_append, track_cons, if_pos about] at opens
    exact opens.front.last.mp kind
  refine ⟨nothing, ?_⟩
  cases found : p.far.session.streams id with
  | none => rfl
  | some n =>
    obtain ⟨known, named⟩ := joined.wired.valid.known found
    exact absurd nothing (traced.learnt.streams n known named)

private theorem turn_farHears (joined : p.Joined) (traced : p.Traced id) (after : q.Traced id)
    (stream : id ≠ 0) (next : p.far.session.nextFrom p.near.session = some frame)
    (idle : p.far.session.reader = .idle) (did : Heard p.far.session frame s')
    (same : q = { p with far := { p.far with session := s' } }) (both : q.Joined) :
    Turn (p.view id) (q.view id) := by
  subst same
  have ahead := hears_drop next did.log
  have toNear : ({ p with far := { p.far with session := s' } } : Pair).toNear = p.toNear := by
    simp only [Pair.toNear, did.out]
  have waiting : ¬ p.far.session.Refuses id := by simp [Session.Refuses, idle]
  have rightEnds (waits : ¬ s'.Refuses id) :
      (({ p with far := { p.far with session := s' } } : Pair).view id).rightEnds ↔
        (p.view id).rightEnds := or_congr (by rw [toNear]) (iff_of_false waits waiting)
  have begun (about : frame.id = id) : track id s'.log ≠ [] :=
    track_ne_nil.mpr ⟨frame, by rw [did.log]; simp, about⟩
  by_cases closing : frame.id = id ∧ frame.kind = .close
  · obtain ⟨gone, waits⟩ := did.closed idle stream closing.1 closing.2
    obtain ⟨quiet, sent⟩ := after.not_opening both (begun closing.1)
    refine .rightHears (.inl ⟨frame, ?_, closing⟩) ?_ Iff.rfl (rightEnds ?_) ?_
    · rw [Pair.toFar, ahead]
      simp
    · rintro (announcing | opening | admits | has)
      · exact quiet announcing
      · exact sent opening
      · cases waits.symm.trans admits
      · exact has gone
    · simp [Session.Refuses, waits]
    · rintro (⟨other, later, about⟩ | rest)
      · exact .inl ⟨other, by rw [Pair.toFar, ahead]; exact List.mem_cons_of_mem _ later, about⟩
      · exact .inr rest
  · have leftEnds : (({ p with far := { p.far with session := s' } } : Pair).view id).leftEnds ↔
        (p.view id).leftEnds := by
      refine or_congr ?_ Iff.rfl
      rw [Pair.toFar, Pair.toFar, ahead, underway_cons]
      simp [closing]
    by_cases opening : frame.id = id ∧ frame.kind = .opening
    · obtain ⟨streams, admits | refuses⟩ := did.opened stream opening.1 opening.2
      · refine .same Iff.rfl (iff_of_true (.inr (.inr (.inl admits))) (.inr (.inl ?_))) leftEnds
          (rightEnds ?_)
        · exact ⟨frame, by rw [Pair.toFar, ahead]; simp, opening⟩
        · simp [Session.Refuses, admits]
      · obtain ⟨quiet, sent⟩ := after.not_opening both (begun opening.1)
        refine .rightDrops ?_ (.inr ⟨none, refuses⟩) Iff.rfl leftEnds
        rintro (announcing | more | admits | has)
        · exact quiet announcing
        · exact sent more
        · cases refuses.symm.trans admits
        · exact has (streams ▸ (traced.unheard joined next opening.1 opening.2).2)
    · obtain ⟨streams, waits, other⟩ := did.aside idle fun about =>
        ⟨fun kind => opening ⟨about, kind⟩, fun kind => closing ⟨about, kind⟩⟩
      refine .same Iff.rfl (or_congr Iff.rfl (or_congr ?_ (or_congr ?_ ?_))) leftEnds (rightEnds waits)
      · rw [Pair.toFar, Pair.toFar, ahead, underway_cons]
        simp [opening]
      · exact iff_of_false other (by simp [idle])
      · simp only [streams]

/-- As long as every CLOSE gets into its outbox, a step of the pair is one of
the turns after which the ends still agree. -/
theorem PairMove.turn (move : PairMove p act q) (whole : p.Whole) (after : q.Whole)
    (stream : id ≠ 0) (sole : q.near.session.Sole id) (permits : p.Permits act) :
    Turn (p.view id) (q.view id) := by
  have joined := whole.joined
  have traced := whole.traced id stream (move.sole_before sole)
  have later := after.traced id stream sole
  have both := after.joined
  cases move with
  | nearLink act tasks did => exact turn_nearLink joined traced tasks did
  | nearTunnel name act did => exact turn_nearTunnel joined traced did sole
  | farLink act tasks did => exact turn_farLink joined traced tasks did
  | farUser act did => exact turn_farUser joined traced did permits
  | nearHears frame next idle did stepped =>
    obtain ⟨session, read, same⟩ := Option.map_eq_some_iff.mp stepped
    cases same
    exact turn_nearHears joined whole.silent stream next idle did fun n known =>
      (step_named read known).1
  | farHears frame next idle did stepped =>
    exact turn_farHears joined traced later stream next idle did rfl both

end DshProxy.Mux

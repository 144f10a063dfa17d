import DshProxy.LinkSlots

/-! What becomes of the tunnels of a link both of whose tasks have ended. The reader's
end has cleared the map and closed the gates of what was in it; the outbox has lost its
receiver. Nothing more comes and nothing more goes, so a tunnel finds out at its next
step: an announcement, the preamble, a grant and a CLOSE fail, and an inbox nobody feeds
any more runs dry. Only a stream that got into the map behind the clearing keeps its
tunnel, until its client says something. -/
namespace DshProxy.Mux
open Sync Wire Transitions

/-- Both tasks of the link have ended. -/
structure Session.Dead (s : Session) : Prop where
  reader : s.reader = .ended
  out : s.out.isOpen = false

instance (s : Session) : Decidable s.Dead :=
  decidable_of_iff (s.reader = .ended ∧ s.out.isOpen = false)
    ⟨fun ⟨reader, out⟩ => ⟨reader, out⟩, fun dead => ⟨dead.reader, dead.out⟩⟩

/-- What goes on unasked behind a dead link: slots come free, and tunnels go on. -/
def ProxyAct.isOwn : ProxyAct → Bool
  | .link .release => true
  | .link _ => false
  | .tunnel _ act => act.isOwn

def ProxyAct.name : ProxyAct → Option Nat
  | .link _ => none
  | .tunnel name _ => some name

/-- The tunnels a run speaks of. -/
def ProxyAct.named (actions : List ProxyAct) : Finset Nat := (actions.filterMap ProxyAct.name).toFinset

/-- All there is left to do, with the tunnels of the given names. -/
def Proxy.left (names : Finset Nat) (p : Proxy) : Nat :=
  p.session.load + ∑ name ∈ names, (p.tunnels name).work

variable {s s' u : Session} {t t' : Tunnel} {p q : Proxy} {names : Finset Nat} {name : Nat}

theorem Session.Dead.stopped (dead : s.Dead) : s.Stopped := fun opened => by
  rw [dead.out] at opened
  cases opened

theorem Session.Dead.prompt (dead : s.Dead) : s.Prompt := fun opened => by
  rw [dead.out] at opened
  cases opened

theorem Session.Dead.costs (dead : s.Dead) : s.Costs u := fun frame s' queued => by
  rw [dead.stopped.enqueue] at queued
  cases queued

theorem Session.Dead.still (dead : s.Dead) (still : s.Still s') : s'.Dead := by
  refine ⟨still.reader.trans dead.reader, ?_⟩
  rw [still.out]
  exact dead.out

theorem Proxy.step_elsewhere {act : ProxyAct} (stepped : p.step act = some q) (other : act.name ≠ some name) :
    q.tunnels name = p.tunnels name := by
  cases act with
  | link act =>
    obtain ⟨session, -, rfl⟩ := Option.map_eq_some_iff.mp stepped
    rfl
  | tunnel mover act =>
    obtain ⟨⟨session, tunnel⟩, -, rfl⟩ := Option.map_eq_some_iff.mp stepped
    exact Proxy.put_other p (fun same => other (congrArg some same.symm)) session tunnel

theorem Proxy.run_elsewhere {actions : List ProxyAct} (ran : run Proxy.step p actions = some q)
    (outside : name ∉ ProxyAct.named actions) : q.tunnels name = p.tunnels name := by
  induction actions generalizing p with
  | nil =>
    cases ran
    rfl
  | cons act rest ih =>
    obtain ⟨mid, stepped, later⟩ := run_cons.mp ran
    have spoken (a : ProxyAct) (member : a ∈ act :: rest) : a.name ≠ some name := fun mine =>
      outside (List.mem_toFinset.mpr (List.mem_filterMap.mpr ⟨a, member, mine⟩))
    rw [← Proxy.step_elsewhere stepped (spoken act (by simp))]
    refine ih later fun member => ?_
    obtain ⟨a, among, mine⟩ := List.mem_filterMap.mp (List.mem_toFinset.mp member)
    exact spoken a (by simp [among]) mine

/-- What is kept behind a dead link, whose tunnels all have one of the names. -/
structure Proxy.Ending (names : Finset Nat) (p : Proxy) : Prop where
  sound : p.Sound
  ready : p.Ready
  dead : p.session.Dead
  within : ∀ name, name ∉ names → p.tunnels name = {}

theorem Proxy.Ending.reached {maxStreams : Nat} {actions : List ProxyAct}
    (ran : run Proxy.step (.start maxStreams) actions = some p) (dead : p.session.Dead) :
    p.Ending (ProxyAct.named actions) := by
  obtain ⟨sound, ready⟩ := run_preserves (fun p => Proxy.Sound p ∧ Proxy.Ready p)
    (fun p act q kept stepped => ⟨kept.1.step stepped, kept.2.step kept.1 stepped⟩)
    ⟨.start maxStreams, .start maxStreams⟩ ran
  exact ⟨sound, ready, dead, fun name outside => Proxy.run_elsewhere ran outside⟩

theorem Proxy.Ending.step {act : ProxyAct} (ending : p.Ending names) (own : act.isOwn = true)
    (stepped : p.step act = some q) : q.Ending names ∧ q.left names < p.left names := by
  have sound := ending.sound.step stepped
  have ready := ending.ready.step ending.sound stepped
  cases act with
  | link act =>
    obtain ⟨session, did, rfl⟩ := Option.map_eq_some_iff.mp stepped
    cases act with
    | release =>
      cases step_move did with
      | release some =>
        have load : ({ p.session with limbo := p.session.limbo - 1, budget := p.session.budget + 1 } : Session).load =
            p.session.reader.work + (p.session.limbo - 1) + p.session.inboxWork := rfl
        refine ⟨⟨sound, ready, ⟨ending.dead.reader, ending.dead.out⟩, ending.within⟩, ?_⟩
        simp only [Proxy.left, load]
        simp only [Session.load]
        omega
    | _ => cases own
  | tunnel name act =>
    obtain ⟨⟨session, tunnel⟩, did, rfl⟩ := Option.map_eq_some_iff.mp stepped
    have move := tunnelStep_move did
    have mine : name ∈ names := by
      by_contra outside
      rw [ending.within name outside] at move
      exact absurd own (by rw [ProxyAct.isOwn, move.begun]; simp)
    have still := move.still ending.dead.stopped
    refine ⟨⟨sound, ready, ending.dead.still still, fun other outside => ?_⟩, ?_⟩
    · have away : other ≠ name := fun same => outside (by rw [same]; exact mine)
      rw [Proxy.put_other p away]
      exact ending.within other outside
    · have spent := move.tires (u := p.session) own ending.dead.costs fun n own => ending.sound.known own
      have outgoing : session.outgoing p.session = p.session.outgoing p.session := outgoing_same still.out still.fed
      have others := sum_changed (f := fun other => (p.tunnels other).work)
        (g := fun other => ((p.put name session tunnel).tunnels other).work) mine
        fun other away => by rw [Proxy.put_other p away]
      rw [Proxy.put_self] at others
      simp only [Session.work, outgoing] at spent
      simp only [Proxy.left, Proxy.put_session]
      omega

theorem Proxy.tires (names : Finset Nat) :
    Tires Proxy.step (fun act => act.isOwn = true) (Proxy.Ending names) (fun _ => True) (Proxy.left names) where
  keeps _ _ _ ending own stepped := (ending.step own stepped).1
  before _ _ _ _ _ _ _ := trivial
  spends _ _ _ ending own stepped _ := (ending.step own stepped).2

/-- At rest every tunnel waits, with nothing but its client to wait for. -/
theorem Proxy.Ending.waits (ending : p.Ending names) (rests : Rests Proxy.step (fun act => act.isOwn = true) p) :
    (p.tunnels name).Waits p.session := by
  have free : p.session.reader.holds = none := by
    rw [ending.dead.reader]
    rfl
  refine tunnel_rests ending.dead.prompt free (ending.sound.fits name) (ending.ready.poised name)
    (ending.ready.affords name) fun act own => ?_
  simpa [Proxy.step] using rests (.tunnel name act) own

/-! What is still in the map. -/

variable {n : Nat} {id : UInt32}

/-- Behind a dead link an open fails, and takes its stream out of the map. -/
theorem Move.unsaid {act : TunnelAct} (move : Move s t act s' t') (valid : Valid s) (stopped : s.Stopped)
    (unsaid : t.Unsaid n) (known : s.streams id = some n) (found : s'.streams id = some n) : t'.Unsaid n := by
  have not {phase : Phase} (here : t.phase = phase) (other : phase ≠ .opening (.announce n))
      (another : phase ≠ .opening (.giveUp n)) : False := by
    obtain stands | stands := unsaid
    · exact other (here.symm.trans stands)
    · exact another (here.symm.trans stands)
  cases move with
  | begin _ phase | reserve phase | refused phase | allocate phase | insert _ phase | greeting _ _ _ phase
  | rejected _ _ phase | closed _ phase | closeFails _ phase | leave _ phase =>
    exact (not phase (by simp) (by simp)).elim
  | announce stream phase did =>
    rw [stopped.enqueue] at did
    cases did
  | announceFails stream phase =>
    obtain stands | stands := unsaid
    · cases phase.symm.trans stands
      exact .inr rfl
    · cases phase.symm.trans stands
  | giveUp stream phase =>
    obtain stands | stands := unsaid
    · cases phase.symm.trans stands
    · cases phase.symm.trans stands
      have named := (valid.known known).2
      simp [Session.hangUp, Session.modify, named] at found
  | _ => exact unsaid

/-- Once begun, a tunnel is not unbegun. -/
theorem Move.underway {act : TunnelAct} (move : Move s t act s' t') (begun : t.phase ≠ .idle) :
    t'.phase ≠ .idle := by
  cases move with
  | greeting stage next => cases next <;> simp [Tunnel.greeted]
  | read | readEnds | uplinkSend | recv | recvEnds | write | writeFails | wrote | grant | grantFails
  | shutdownDone => exact begun
  | _ => simp

/-- What has been in the map since the link died, but for opens that are about to fail. -/
def Proxy.Dwindles (p q : Proxy) : Prop :=
  (∀ id n, q.session.streams id = some n → p.session.streams id = some n ∨ ∃ name, (q.tunnels name).Unsaid n) ∧
    ∀ name, (p.tunnels name).phase ≠ .idle → (q.tunnels name).phase ≠ .idle

theorem Proxy.Dwindles.step {mid : Proxy} {act : ProxyAct} (dwindles : p.Dwindles mid) (ending : mid.Ending names)
    (own : act.isOwn = true) (stepped : mid.step act = some q) : p.Dwindles q := by
  cases act with
  | link act =>
    obtain ⟨session, did, rfl⟩ := Option.map_eq_some_iff.mp stepped
    cases act with
    | release =>
      cases step_move did with
      | release => exact dwindles
    | _ => cases own
  | tunnel name act =>
    obtain ⟨⟨session, tunnel⟩, did, rfl⟩ := Option.map_eq_some_iff.mp stepped
    have move := tunnelStep_move did
    refine ⟨fun id n found => ?_, fun other begun => ?_⟩
    · have valid := ending.sound.wired.valid
      obtain known | unsaid := move.entries (ending.sound.fits name) found
      · obtain old | ⟨other, unsaid⟩ := dwindles.1 id n known
        · exact .inl old
        · refine .inr ⟨other, ?_⟩
          by_cases here : other = name
          · rw [here] at unsaid ⊢
            rw [Proxy.put_self]
            exact move.unsaid valid ending.dead.stopped unsaid known found
          · rw [Proxy.put_other mid here]
            exact unsaid
      · exact .inr ⟨name, by rw [Proxy.put_self]; exact unsaid⟩
    · have before := dwindles.2 other begun
      by_cases here : other = name
      · rw [here] at before ⊢
        rw [Proxy.put_self]
        exact move.underway before
      · rw [Proxy.put_other mid here]
        exact before

/-- What every run behind a dead link keeps. -/
theorem Proxy.Ending.run {more : List ProxyAct} (ending : p.Ending names)
    (own : ∀ act ∈ more, ProxyAct.isOwn act = true) (ran : run Proxy.step p more = some q) :
    q.Ending names ∧ p.Dwindles q := by
  refine run_preserves_where (fun q => Proxy.Ending names q ∧ p.Dwindles q) ?_
    ⟨ending, fun id n found => .inl found, fun name begun => begun⟩
    (meets_of_mem fun act member _ => own act member : Meets Proxy.step (fun _ act => act.isOwn = true) p more) ran
  rintro mid act next ⟨ending, dwindles⟩ own stepped
  exact ⟨(ending.step own stepped).1, dwindles.step ending own stepped⟩

end DshProxy.Mux

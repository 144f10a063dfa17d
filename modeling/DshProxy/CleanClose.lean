import DshProxy.ServeDownlink

/-! What a client gets of a stream that its bridge closes. CLOSE takes the stream
out of the map, so the downlink ends once the inbox is drained; but it also
closes the credit gate, and an uplink that meets the closed gate ends `select!`
at once, drained or not. -/
namespace DshProxy.Mux
open Sync Wire Transitions

/-- The carrier of one tunnel never errors and its client never ends its side. -/
def Proxy.Steadfast (name : Nat) (_ : Proxy) : ProxyAct → Prop
  | .tunnel mover act => mover = name → act ≠ .readEnds ∧ act ≠ .writeFails
  | .link _ => True

instance (name : Nat) (p : Proxy) : (act : ProxyAct) → Decidable (p.Steadfast name act)
  | .tunnel _ _ => inferInstanceAs (Decidable (_ → _))
  | .link _ => isTrue trivial

/-- No send of the tunnel fails before its downlink is through. -/
def Session.Undisturbed (s : Session) (t : Tunnel) : TunnelAct → Prop
  | .proceed => (t.phase.announces = true → s.out.isOpen = true) ∧
      ∀ n ∈ t.stream, ∀ stage ∈ t.phase.sends, ¬ s.SendFails n stage
  | .uplinkSend => t.downlink.isEnded = true ∨
      ∀ n ∈ t.stream, ∀ stage ∈ t.uplink.sends, ¬ s.SendFails n stage
  | .grant => s.out.isOpen = true
  | _ => True

instance (s : Session) (t : Tunnel) : (act : TunnelAct) → Decidable (s.Undisturbed t act)
  | .proceed => inferInstanceAs (Decidable ((_ → _) ∧ ∀ n ∈ t.stream, ∀ stage ∈ t.phase.sends, _))
  | .uplinkSend => inferInstanceAs (Decidable (_ ∨ ∀ n ∈ t.stream, ∀ stage ∈ t.uplink.sends, _))
  | .grant => inferInstanceAs (Decidable (_ = true))
  | .begin _ | .read _ | .readEnds | .recv | .recvEnds | .write _ | .writeFails | .wrote
  | .shutdownDone | .leave => isTrue trivial

/-- No send of one tunnel fails before its downlink is through. -/
def Proxy.Undisturbed (name : Nat) (p : Proxy) : ProxyAct → Prop
  | .tunnel mover act => mover = name → p.session.Undisturbed (p.tunnels name) act
  | .link _ => True

instance (name : Nat) (p : Proxy) : (act : ProxyAct) → Decidable (p.Undisturbed name act)
  | .tunnel _ _ => inferInstanceAs (Decidable (_ → _))
  | .link _ => isTrue trivial

variable {s s' : Session} {t t' : Tunnel} {n : Nat}

/-- A stream that nobody can feed any more stays so. -/
theorem Quiet.feeds (quiet : Quiet s s') (known : n < s.created) (feeds : s'.Feeds n) : s.Feeds n := by
  obtain entry | held := feeds
  · rw [quiet.id n known] at entry
    exact .inl (quiet.streams n known entry)
  · rw [quiet.reader] at held
    exact .inr held

theorem step_feeds (wired : Wired s) (stepped : s.step act = some s') (known : n < s.created)
    (feeds : s'.Feeds n) : s.Feeds n := by
  have entered (entry : s'.streams (s'.arena n).id = some n) : s.Feeds n := by
    rw [(step_named stepped known).1] at entry
    obtain ⟨same, -⟩ | ⟨id, -, same⟩ | ⟨-, same⟩ | ⟨id, -, -, same⟩ := step_map stepped
    · rw [same.streams] at entry
      exact .inl entry
    · rw [same.streams] at entry
      exact .inl ((quiet_removeAndClose s id).streams n known entry)
    · rw [same.streams] at entry
      cases entry
    · rw [same.streams] at entry
      exact .inl ((quiet_insert s id).streams n known entry)
  obtain entry | held := feeds
  · exact entered entry
  · cases step_move stepped with
    | heard plain frame idle _ _ did =>
      cases did with
      | data aim _ _ found =>
        obtain rfl : aim = n := Option.some.inj held
        rw [← (wired.valid.known found).2] at found
        exact .inl found
      | closes =>
        rw [(quiet_removeAndClose _ _).reader] at held
        exact .inr held
      | grants aim => exact .inr held
      | ignores => exact .inr held
      | _ => cases held
    | overflows id stream body reading =>
      obtain rfl : stream = n := Option.some.inj held
      exact .inr (by rw [reading]; rfl)
    | evicts id stream reading =>
      obtain rfl : stream = n := Option.some.inj held
      exact .inr (by rw [reading]; rfl)
    | takeBatch => exact .inr held
    | feed => exact .inr held
    | writerEnds => exact .inr held
    | release => exact .inr held
    | shutdownClear => exact .inr held
    | shutdownAbort => exact .inr held
    | _ => cases held

/-- The receiver has taken everything, and nothing more can come. -/
structure Settled (s : Session) (n : Nat) : Prop where
  finished : ¬ s.Feeds n
  drained : (s.arena n).took = (s.arena n).inbox.accepted

theorem settled_step (wired : Wired s) (stepped : s.step act = some s') (known : n < s.created)
    (settled : Settled s n) : Settled s' n := by
  refine ⟨fun feeds => settled.finished (step_feeds wired stepped known feeds), ?_⟩
  obtain same | ⟨id, body, -, reading, -⟩ := step_inbox stepped known
  · have drained := settled.drained
    unfold Stream.took at drained ⊢
    rw [same]
    exact drained
  · exact absurd (.inr (by rw [reading]; rfl)) settled.finished

/-- What a tunnel that nothing disturbs has done when its downlink is through. -/
structure Drains (s : Session) (t : Tunnel) : Prop where
  settled : ∀ n, t.stream = some n → ∀ rest, t.downlink = .shutting rest ∨ t.downlink = .ended rest →
    rest = [] ∧ Settled s n
  uplink : t.uplink = .ended → t.downlink.isEnded = true
  announced : ∀ n, t.phase ≠ .opening (.giveUp n)
  finished : t.stream ≠ none → t.phase = .closing ∨ t.phase = .returned → t.downlink.isEnded = true

theorem Move.settled (move : Move s t act s' t') (known : n < s.created)
    (other : act = .recv → t.stream ≠ some n) (settled : Settled s n) : Settled s' n := by
  refine ⟨fun feeds => settled.finished (move.quiet.feeds known feeds), ?_⟩
  rw [move.took_other known other, move.quiet.accepted n known]
  exact settled.drained

private theorem drains_kept (drains : Drains s t)
    (kept : ∀ n, t.stream = some n → Settled s n → Settled s' n) (stream : t'.stream = t.stream)
    (downlink : t'.downlink = t.downlink)
    (uplink : t'.uplink = .ended → t.uplink = .ended ∨ t.downlink.isEnded = true)
    (announced : ∀ n, t'.phase ≠ .opening (.giveUp n))
    (finished : t.stream ≠ none → t'.phase = .closing ∨ t'.phase = .returned →
      t.downlink.isEnded = true) : Drains s' t' := by
  refine ⟨fun n own rest through => ?_, fun ended => ?_, announced, fun served phase => ?_⟩
  · rw [stream] at own
    rw [downlink] at through
    obtain ⟨nothing, settled⟩ := drains.settled n own rest through
    exact ⟨nothing, kept n own settled⟩
  · rw [downlink]
    exact (uplink ended).elim drains.uplink id
  · rw [stream] at served
    rw [downlink]
    exact finished served phase

/-- The downlink is still under way after the step. -/
private theorem drains_going (drains : Drains s t) (running : t.phase = .running)
    (phase : t'.phase = t.phase) (uplink : t'.uplink = t.uplink)
    (before : t.downlink.isEnded = false)
    (after : ∀ rest, t'.downlink ≠ .shutting rest ∧ t'.downlink ≠ .ended rest) : Drains s' t' := by
  refine ⟨fun n own rest through => ?_, fun ended => ?_, fun n given => ?_, fun _ given => ?_⟩
  · exact (through.elim (after rest).1 (after rest).2).elim
  · rw [uplink] at ended
    have through := drains.uplink ended
    rw [before] at through
    cases through
  · rw [phase, running] at given
    cases given
  · rw [phase, running] at given
    obtain given | given := given <;> cases given

theorem Move.drains (move : Move s t act s' t') (drains : Drains s t) (fits : t.Fits)
    (known : ∀ n, t.stream = some n → n < s.created)
    (steadfast : act ≠ .readEnds ∧ act ≠ .writeFails) (undisturbed : s.Undisturbed t act) :
    Drains s' t' := by
  have kept (other : act ≠ .recv) (n : Nat) (own : t.stream = some n) (settled : Settled s n) :
      Settled s' n := move.settled (known n own) (fun same => absurd same other) settled
  have place := fits.place
  have early := fits.early
  cases move with
  | begin head idle =>
    rw [idle] at place
    exact drains_kept drains (kept (by simp)) rfl rfl .inl (by simp) (by simp)
  | reserve phase => exact drains_kept drains (kept (by simp)) rfl rfl .inl (by simp) (by simp)
  | refused phase =>
    rw [phase] at place
    exact drains_kept drains (kept (by simp)) rfl rfl .inl (by simp) fun served => absurd place served
  | allocate phase => exact drains_kept drains (kept (by simp)) rfl rfl .inl (by simp) (by simp)
  | insert id phase =>
    rw [phase] at early
    refine ⟨fun n own rest through => ?_, fun ended => ?_, by simp, by simp⟩
    · rw [show _ = Downlink.waiting from early.2] at through
      obtain through | through := through <;> cases through
    · rw [show _ = Uplink.off from early.1] at ended
      cases ended
  | announce stream phase =>
    exact drains_kept drains (kept (by simp)) rfl rfl .inl (by simp) (by simp)
  | announceFails stream phase dead =>
    have live := undisturbed.1 (by rw [phase]; rfl)
    rw [dead] at live
    cases live
  | giveUp stream phase => exact absurd phase (drains.announced stream)
  | greeting stage next stream phase own did unbroken =>
    rw [phase] at early
    cases next with
    | sent => exact drains_kept drains (kept (by simp)) rfl rfl (by simp [Tunnel.greeted]) (by simp [Tunnel.greeted]) (by simp [Tunnel.greeted])
    | broken => exact absurd rfl unbroken
    | acquire rest => exact drains_kept drains (kept (by simp)) rfl rfl .inl (by simp [Tunnel.greeted]) (by simp [Tunnel.greeted])
    | queue chunk rest => exact drains_kept drains (kept (by simp)) rfl rfl .inl (by simp [Tunnel.greeted]) (by simp [Tunnel.greeted])
  | rejected stage stream phase own did =>
    exact absurd (sendStep_fails did) (undisturbed.2 stream own stage (by rw [phase]; rfl))
  | closed stream phase own =>
    exact drains_kept drains (kept (by simp)) rfl rfl .inl (by simp) fun served _ =>
      drains.finished served (.inl phase)
  | closeFails stream phase own =>
    exact drains_kept drains (kept (by simp)) rfl rfl .inl (by simp) fun served _ =>
      drains.finished served (.inl phase)
  | read bytes reading =>
    exact drains_kept drains (kept (by simp)) rfl rfl (by simp) drains.announced drains.finished
  | readEnds => exact absurd rfl steadfast.1
  | uplinkSend stage next stream sending own did =>
    refine drains_kept drains (kept (by simp)) rfl rfl (fun ended => .inr ?_) drains.announced
      drains.finished
    obtain through | clear := undisturbed
    · exact through
    · have broken : next = .broken := by cases next <;> simp_all [Uplink.after]
      subst broken
      exact absurd (sendStep_fails did) (clear stream own stage (by rw [sending]; rfl))
  | recv stream chunk running own waiting =>
    exact drains_going drains running rfl rfl (by rw [waiting]; rfl) (by simp)
  | recvEnds stream running own waiting drained finished =>
    refine ⟨fun n mine rest through => ?_, fun ended => ?_, by simp [running], by simp [running]⟩
    · obtain rfl : stream = n := Option.some.inj (own.symm.trans mine)
      have split := (s.arena stream).inbox.take_append_queue
      rw [drained, List.append_nil] at split
      obtain through | through := through
      · cases through
        exact ⟨rfl, finished, split⟩
      · cases through
    · have through := drains.uplink ended
      rw [waiting] at through
      cases through
  | write stream count rest size running own writing =>
    exact drains_going drains running rfl rfl (by rw [writing]; rfl) (by simp)
  | writeFails => exact absurd rfl steadfast.2
  | wrote stream size running own writing =>
    refine drains_going drains running rfl rfl (by rw [writing]; rfl) fun rest => ?_
    dsimp only
    split <;> simp
  | grant stream running own granting =>
    exact drains_going drains running rfl rfl (by rw [granting]; rfl) (by simp)
  | grantFails stream running own granting dead =>
    have live : s.out.isOpen = true := undisturbed
    rw [dead] at live
    cases live
  | shutdownDone unwritten running shutting =>
    refine ⟨fun n own rest through => ?_, fun _ => rfl, by simp [running], by simp [running]⟩
    obtain through | through := through
    · cases through
    · cases through
      exact drains.settled n own _ (.inl shutting)
  | leave stream running own finished =>
    exact drains_kept drains (kept (by simp)) rfl rfl .inl (by simp) fun _ _ =>
      finished.elim drains.uplink id

/-- One tunnel of a link, undisturbed. -/
structure Proxy.Drains (name : Nat) (p : Proxy) : Prop where
  sound : p.Sound
  drains : Mux.Drains p.session (p.tunnels name)

theorem Proxy.Drains.step {p next : Proxy} (drains : p.Drains name)
    (permitted : p.Steadfast name act ∧ p.Undisturbed name act) (stepped : p.step act = some next) :
    next.Drains name := by
  have sound := drains.sound.step stepped
  have held := drains.drains
  cases act with
  | link act =>
    obtain ⟨session, did, rfl⟩ := Option.map_eq_some_iff.mp stepped
    refine ⟨sound, drains_kept held (fun n own settled => ?_) rfl rfl .inl held.announced held.finished⟩
    exact settled_step drains.sound.wired did (drains.sound.known own) settled
  | tunnel mover act =>
    obtain ⟨⟨session, tunnel⟩, did, rfl⟩ := Option.map_eq_some_iff.mp stepped
    have move := tunnelStep_move did
    refine ⟨sound, ?_⟩
    by_cases same : name = mover
    · subst same
      rw [Proxy.put_self]
      exact move.drains held (drains.sound.fits name) (fun n own => drains.sound.known own)
        (permitted.1 rfl) (permitted.2 rfl)
    · rw [Proxy.put_other p same]
      refine drains_kept held (fun n own settled => ?_) rfl rfl .inl held.announced held.finished
      exact move.settled (drains.sound.known own)
        (fun _ mine => same (drains.sound.apart own mine)) settled

/-- A tunnel whose client stays and none of whose sends fails before the
downlink is through hands over every chunk that was queued for it. -/
theorem clean_close_writes_everything (maxStreams name : Nat) (actions : List ProxyAct)
    (steadfast : Meets Proxy.step (Proxy.Steadfast name) (.start maxStreams) actions)
    (undisturbed : Meets Proxy.step (Proxy.Undisturbed name) (.start maxStreams) actions)
    {p : Proxy} (ran : run Proxy.step (.start maxStreams) actions = some p) {n : Nat}
    (own : (p.tunnels name).stream = some n) (returned : (p.tunnels name).phase = .returned) :
    (p.tunnels name).writes = (p.session.arena n).inbox.accepted.flatten := by
  have drains : p.Drains name := by
    refine run_preserves_where (Proxy.Drains name) ?_ ?_ (steadfast.and undisturbed) ran
    · intro p act next drains permitted stepped
      exact drains.step permitted stepped
    · refine ⟨Proxy.Sound.start maxStreams, ?_, ?_, ?_, ?_⟩
      · intro n own
        cases own
      · intro ended
        cases ended
      · intro n given
        cases given
      · intro served
        exact absurd rfl served
  have through := drains.drains.finished (by simp [own]) (.inr returned)
  cases ended : (p.tunnels name).downlink with
  | ended rest =>
    obtain ⟨rfl, settled⟩ := drains.drains.settled n own rest (.inr ended)
    have written := (drains.sound.down own).written
    rw [ended, settled.drained] at written
    exact (List.append_nil _).symm.trans written
  | _ =>
    rw [ended] at through
    cases through

/-- A tunnel is up, one byte is queued for its client, and the bridge closes. -/
private def closedByBridge : List ProxyAct :=
  [.tunnel 0 (.begin (List.replicate 37 0)), .tunnel 0 .proceed, .tunnel 0 .proceed,
    .tunnel 0 .proceed, .tunnel 0 .proceed, .tunnel 0 .proceed, .tunnel 0 .proceed,
    .link (.recv [0, 0, 0, 1, 1, 0, 1, 0, 7]), .link .advance, .link (.recv [0, 0, 0, 1, 2, 0, 0, 0])]

/-- The client says something just then: its byte meets the closed gate. -/
private def uplinkFails : List ProxyAct :=
  closedByBridge ++ [.tunnel 0 (.read [9]), .tunnel 0 .uplinkSend, .tunnel 0 .leave, .tunnel 0 .proceed]

private def downlinkDrains : List ProxyAct :=
  closedByBridge ++ [.tunnel 0 .recv, .tunnel 0 (.write 1), .tunnel 0 .wrote, .tunnel 0 .recvEnds,
    .tunnel 0 .shutdownDone, .tunnel 0 .leave, .tunnel 0 .proceed]

/-- `serve_client` returns with the queued byte unwritten, on a carrier that
never failed and for a client that never left. -/
theorem clean_close_truncates :
    ∃ p, run Proxy.step (.start 1) uplinkFails = some p ∧
      Meets Proxy.step (Proxy.Steadfast 0) (.start 1) uplinkFails ∧
      (p.tunnels 0).stream = some 0 ∧ (p.tunnels 0).phase = .returned ∧
      (p.tunnels 0).writes = [] ∧ (p.session.arena 0).inbox.accepted = [[7]] := by
  have checked : ((run Proxy.step (.start 1) uplinkFails).any fun p =>
      (p.tunnels 0).stream = some 0 ∧ (p.tunnels 0).phase = .returned ∧
      (p.tunnels 0).writes = [] ∧ (p.session.arena 0).inbox.accepted = [[7]]) = true := by
    decide +kernel
  have steadfast : Meets Proxy.step (Proxy.Steadfast 0) (.start 1) uplinkFails := by decide +kernel
  obtain ⟨p, ran, ends⟩ := run_reaches checked
  exact ⟨p, ran, steadfast, ends⟩

/-- With a silent client the same byte arrives. -/
theorem clean_close_writes_everything_drained :
    ∃ p, run Proxy.step (.start 1) downlinkDrains = some p ∧
      (p.session.arena 0).inbox.accepted = [[7]] ∧ (p.tunnels 0).writes = [[7]].flatten := by
  have checked : ((run Proxy.step (.start 1) downlinkDrains).any fun p =>
      (p.tunnels 0).stream = some 0 ∧ (p.tunnels 0).phase = .returned ∧
      (p.session.arena 0).inbox.accepted = [[7]]) = true := by decide +kernel
  have steadfast : Meets Proxy.step (Proxy.Steadfast 0) (.start 1) downlinkDrains := by
    decide +kernel
  have undisturbed : Meets Proxy.step (Proxy.Undisturbed 0) (.start 1) downlinkDrains := by
    decide +kernel
  obtain ⟨p, ran, ends⟩ := run_reaches checked
  obtain ⟨own, returned, queued⟩ := ends
  refine ⟨p, ran, queued, ?_⟩
  rw [← queued]
  exact clean_close_writes_everything 1 0 downlinkDrains steadfast undisturbed ran own returned

end DshProxy.Mux
